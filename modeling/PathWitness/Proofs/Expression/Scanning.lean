import Mathlib.Data.List.Basic
import Mathlib.Data.List.TakeWhile
import PathWitness.Expression.Token

/-!
# Texts and Their Tokens

A text is cut into tokens from the left, and where a token ends depends on the
character behind it: `<` ends before a blank but not before `=`, and a numeral goes on
with a point, an exponent or a digit of any base. So what can be said about a piece of
text is conditional on what follows. Each kind of token has its own condition, on the
first character of the rest alone: `endsWord`, `partsMark` and `partsNumeral`.

`Lexes` fixes the condition. A piece of text that is followed by a blank, by a closing
parenthesis or by nothing has its own tokens, and such pieces are put together with
blanks and parentheses without looking at their characters again.

The number of tokens is limited by the number of characters when a text is scanned.
`Scans` speaks of every sufficient limit, since a rest is scanned under the limit of
the whole.

## Main definitions

* `Scans`: A text is cut into tokens.
* `isWord`, `marks`, `isNumeral`: The texts of single tokens.
* `Lexes`: A text is cut into tokens in front of a blank or the end of a group.

## Theorems

* `scanToken_word`, `scanToken_mark`, `scanToken_numeral`: The first token of a text.
* `Scans.word`, `Scans.mark`, `Scans.numeral`: A text with one more token in front.
* `Lexes.blank`, `Lexes.before`, `Lexes.group`: Putting texts together.
-/

namespace PathWitness

namespace Expression

variable {c : Char} {cs rest : List Char} {t : Token} {ts : List Token}

/-- A text is cut into tokens, whatever limit is set to their number. -/
def Scans (cs : List Char) (ts : List Token) : Prop :=
  ∀ limit, cs.length ≤ limit → scanTokens limit cs = ts

theorem Scans.nil : Scans [] [] := by
  intro limit _
  cases limit with
  | zero => rfl
  | succ n => rfl

theorem Scans.blank (h : Scans cs ts) : Scans (' ' :: cs) ts := by
  intro limit hlimit
  have hsame : scanTokens limit (' ' :: cs) = scanTokens limit cs := by
    cases limit with
    | zero => rfl
    | succ n =>
        simp only [scanTokens, List.dropWhile_cons, show isSeparator ' ' = true from rfl, if_true]
  rw [hsame]
  exact h limit (Nat.le_of_succ_le hlimit)

theorem Scans.token (hc : ∃ c ∈ cs.head?, isSeparator c = false)
    (hscan : scanToken (cs ++ rest) = (t, rest)) (h : Scans rest ts) :
    Scans (cs ++ rest) (t :: ts) := by
  intro limit hlimit
  obtain ⟨c, hhead, hc⟩ := hc
  obtain ⟨cs, rfl⟩ : ∃ ds, cs = c :: ds := List.head?_eq_some_iff.1 hhead
  rw [List.cons_append] at hlimit hscan ⊢
  cases limit with
  | zero => cases hlimit
  | succ n =>
      simp only [List.length_cons, List.length_append] at hlimit
      simp only [scanTokens, List.dropWhile_cons, hc, Bool.false_eq_true, if_false, hscan]
      -- The token has taken a character, so the rest is within what is left of the limit.
      rw [h n (by omega)]

theorem ne_of_class {p : Char → Bool} {d : Char} (hc : p c = true) (hd : p d = false) : c ≠ d := by
  rintro rfl
  rw [hc] at hd
  cases hd

/-- A run of characters of a class ends where the rest starts with another. -/
theorem takeWhile_append_of_stop {p : Char → Bool} (hcs : ∀ c ∈ cs, p c = true)
    (hrest : ∀ c ∈ rest.head?, p c = false) : (cs ++ rest).takeWhile p = cs := by
  have hstop : rest.takeWhile p = [] := by
    cases rest with
    | nil => rfl
    | cons c rest => simp [hrest c rfl]
  rw [List.takeWhile_append_of_pos hcs, hstop, List.append_nil]

/-- An identifier without a fault. -/
def Token.ofWord (text : String) : Token := ⟨.identifier, text, none⟩

/-- A mark without a fault. -/
def Token.ofMark (text : String) : Token := ⟨.mark, text, none⟩

/-- An integer numeral without a fault. -/
def Token.ofNumeral (text : String) : Token := ⟨.integer, text, none⟩

/-- A word starts like an identifier and goes on like one. -/
def isWord : List Char → Bool
  | [] => false
  | c :: cs => startsIdentifier c && cs.all continuesIdentifier

theorem scanToken_word (hword : isWord cs = true)
    (hends : ∀ c ∈ rest.head?, continuesIdentifier c = false)
    (hzero : rest.head? ≠ some '\x00') :
    scanToken (cs ++ rest) = (.ofWord (String.ofList cs), rest) := by
  cases cs with
  | nil => cases hword
  | cons c cs =>
      obtain ⟨hc, hcs⟩ : startsIdentifier c = true ∧ ∀ d ∈ cs, continuesIdentifier d = true := by
        simpa [isWord] using hword
      have htake := takeWhile_append_of_stop hcs hends
      have hahead : zeroAhead rest = [] := by
        rw [zeroAhead, if_neg (by simpa using hzero)]
      simp [scanToken, Token.ofWord, hc, htake, hahead]

/-- The marks of expressions. -/
def marks : List String :=
  ["(", ")", ".", "[", "]", "!", "-", "+", "*", "/", "%", "<", "<=", ">", ">=", "==", "!=", "&",
    "^", "|", "&&", "||"]

/-- A character that can stand behind a mark without becoming part of it. -/
def partsMark (c : Char) : Bool :=
  c != '=' && c != '&' && c != '|' && c != '\x00'

theorem markLength_append {mark : String} (hmark : mark ∈ marks)
    (hrest : ∀ c ∈ rest.head?, partsMark c = true) :
    markLength (mark.toList ++ rest) = mark.toList.length := by
  have hkinds : ∀ mark ∈ marks, (∃ c, mark.toList = [c]) ∨
      ∃ c d, mark.toList = [c, d] ∧ markLength [c, d] = 2 := by
    intro mark hmark
    have hlengths : ∀ mark ∈ marks, mark.toList.length = 1 ∨
        mark.toList.length = 2 ∧ markLength mark.toList = 2 := by decide
    rcases hlengths mark hmark with hone | ⟨htwo, hlength⟩
    · exact .inl (List.length_eq_one_iff.1 hone)
    · obtain ⟨c, d, hcd⟩ := List.length_eq_two.1 htwo
      exact .inr ⟨c, d, hcd, hcd ▸ hlength⟩
  rcases hkinds mark hmark with ⟨c, hc⟩ | ⟨c, d, hcd, hlength⟩
  · -- A single character would take an equals sign or, if it is a connective, its own double.
    rw [hc]
    cases rest with
    | nil => rfl
    | cons d rest =>
        obtain ⟨⟨⟨heq, hand⟩, hor⟩, -⟩ : ((d ≠ '=' ∧ d ≠ '&') ∧ d ≠ '|') ∧ d ≠ '\x00' := by
          simpa [partsMark] using hrest d rfl
        have hdouble : ((c == '&' || c == '|') && d == c) = false := by
          by_cases hdc : d = c
          · subst hdc
            simp [hand, hor]
          · simp [hdc]
        simp [markLength, heq, hdouble]
  · rw [hcd]
    exact hlength

theorem scanToken_mark {mark : String} (hmark : mark ∈ marks)
    (hrest : ∀ c ∈ rest.head?, partsMark c = true)
    (hpoint : mark = "." → ∀ c ∈ rest.head?, Number.isDigit c = false) :
    scanToken (mark.toList ++ rest) = (.ofMark mark, rest) := by
  have hfirst : ∀ mark ∈ marks, mark.toList ≠ [] ∧ (mark.toList.all fun c =>
      !startsIdentifier c && !Number.isDigit c && c != '\x00') = true ∧
      ('.' ∈ mark.toList → mark = ".") := by decide +kernel
  obtain ⟨hne, hplain, hdot⟩ := hfirst mark hmark
  have hlength := markLength_append hmark hrest
  have hahead : zeroAhead rest = [] := by
    cases rest with
    | nil => rfl
    | cons d rest =>
        have h := hrest d rfl
        simp only [partsMark, Bool.and_eq_true, bne_iff_ne] at h
        simp [zeroAhead, h.2]
  cases hcs : mark.toList with
  | nil => exact absurd hcs hne
  | cons c cs =>
      rw [hcs] at hlength hplain hdot
      obtain ⟨⟨⟨hword, hdigit⟩, hzero⟩, -⟩ :
          ((startsIdentifier c = false ∧ Number.isDigit c = false) ∧ c ≠ '\x00') ∧ _ := by
        simpa [List.all_cons] using hplain
      -- A point in front of a digit would start a numeral.
      have hnumeral : (c == '.' && ((cs ++ rest).head?.map Number.isDigit).getD false) = false := by
        by_cases hc : c = '.'
        · subst hc
          have hmark : mark = "." := hdot List.mem_cons_self
          subst hmark
          obtain rfl : cs = [] := (List.cons.inj hcs).2.symm
          cases rest with
          | nil => rfl
          | cons d rest => simpa using hpoint rfl d rfl
        · simp [hc]
      rw [List.cons_append, scanToken]
      simp only [hword, hdigit, hnumeral, Bool.false_eq_true, if_false, Bool.or_false]
      have htext : String.ofList (c :: cs) = mark := by rw [← hcs, String.ofList_toList]
      have hfirst : zeroAhead (c :: cs ++ rest) = [] := by simp [zeroAhead, hzero]
      rw [← List.cons_append, hlength, List.take_left' rfl, List.drop_left' rfl, hahead, hfirst,
        htext]
      rfl

theorem startsIdentifier_of_isDigit (h : Number.isDigit c = true) : startsIdentifier c = false := by
  simp only [Number.isDigit, Bool.and_eq_true, decide_eq_true_eq] at h
  have hsmall : c.toNat < 0x41 := Nat.lt_of_le_of_lt (Char.le_def.1 h.2) (by decide)
  -- No letter comes before the first of the table.
  have hletter : Text.isLetter c = false := by
    rw [Text.isLetter, Text.inRanges, Text.letterRanges,
      List.takeWhile_cons_of_neg (by simpa using hsmall)]
    rfl
  have hunderscore : c ≠ '_' := by
    rintro rfl
    exact absurd hsmall (by decide)
  simp [startsIdentifier, hunderscore, hletter]

/-- An integer numeral: the mark of its base and digits of the base, among which
    underscores may separate digits. -/
def isNumeral (cs : List Char) : Bool :=
  let digits := cs.drop (numeralRadix cs).2.length
  digitRun ((numeralRadix cs).1 == .hexadecimal) digits == digits &&
    ((numeralRadix cs).1 == .leadingZero || !digits.all (· == '_')) &&
    (firstInvalidDigit (numeralRadix cs).1 digits).isNone &&
    (!cs.contains '_' || Number.separatorsFit cs)

/-- A character that can stand behind a numeral without becoming part of it. -/
def partsNumeral (c : Char) : Bool :=
  !Number.isHexDigit c && !(['_', '.', '\x00'].contains c) &&
    !(['b', 'e', 'o', 'p', 'x'].contains (Number.lowerAscii c))

theorem partsNumeral_iff : partsNumeral c = true ↔ Number.isHexDigit c = false ∧
    (c ≠ '_' ∧ c ≠ '.' ∧ c ≠ '\x00') ∧ Number.lowerAscii c ≠ 'b' ∧ Number.lowerAscii c ≠ 'e' ∧
      Number.lowerAscii c ≠ 'o' ∧ Number.lowerAscii c ≠ 'p' ∧ Number.lowerAscii c ≠ 'x' := by
  simp [partsNumeral, and_assoc]

theorem isDigit_of_isHexDigit (h : Number.isHexDigit c = false) : Number.isDigit c = false := by
  simp only [Number.isHexDigit, Bool.or_eq_false_iff] at h
  exact h.1.1

theorem exponentAhead?_none (hrest : ∀ c ∈ rest.head?, partsNumeral c = true) :
    exponentAhead? rest = none := by
  cases rest with
  | nil => rfl
  | cons c rest =>
      obtain ⟨-, -, -, he, -, hp, -⟩ := partsNumeral_iff.1 (hrest c rfl)
      simp [exponentAhead?, he, hp]

theorem numeralRadix_append (hcs : cs ≠ []) (hrest : ∀ c ∈ rest.head?, partsNumeral c = true) :
    numeralRadix (cs ++ rest) = numeralRadix cs := by
  match cs, hcs with
  | [c], _ =>
      by_cases hc : c = '0'
      · -- Only a zero that stands alone looks at what follows for the letter of a base.
        subst hc
        cases rest with
        | nil => rfl
        | cons d rest =>
            obtain ⟨-, -, hb, -, ho, -, hx⟩ := partsNumeral_iff.1 (hrest d rfl)
            simp [numeralRadix]
      · simp [numeralRadix, hc]
  | c :: d :: cs, _ =>
      by_cases hc : c = '0'
      · subst hc
        rfl
      · simp [numeralRadix, hc]

theorem numeralRadix_starts (cs : List Char) : (numeralRadix cs).2 <+: cs := by
  unfold numeralRadix
  split
  · split <;> simp
  · exact List.prefix_refl _
  · exact List.nil_prefix

/-- Digits go on up to what cannot be part of a numeral. -/
theorem digitRun_append {hex : Bool} (hcs : digitRun hex cs = cs)
    (hrest : ∀ c ∈ rest.head?, partsNumeral c = true) : digitRun hex (cs ++ rest) = cs := by
  refine takeWhile_append_of_stop (List.takeWhile_eq_self_iff.1 hcs) fun c hc => ?_
  obtain ⟨hhex, ⟨hunderscore, -⟩, -⟩ := partsNumeral_iff.1 (hrest c hc)
  simp [hhex, isDigit_of_isHexDigit hhex, hunderscore]

/-- A numeral starts with a digit. -/
theorem head?_of_isNumeral (h : isNumeral cs = true) : ∃ c ∈ cs.head?, Number.isDigit c = true := by
  cases cs with
  | nil => exact absurd h (by decide)
  | cons c cs =>
      refine ⟨c, rfl, ?_⟩
      by_cases hzero : c = '0'
      · rw [hzero]
        rfl
      · have hradix : numeralRadix (c :: cs) = (.decimal, []) := by simp [numeralRadix, hzero]
        unfold isNumeral at h
        rw [hradix] at h
        simp only [Bool.and_eq_true, beq_iff_eq] at h
        obtain ⟨⟨⟨hrun, -⟩, -⟩, hseparators⟩ := h
        have hc := List.takeWhile_eq_self_iff.1 hrun c List.mem_cons_self
        by_cases hunderscore : c = '_'
        · -- An underscore in front separates nothing.
          rw [hunderscore] at hseparators
          have hdigit : Number.isDigit '_' = false := rfl
          exact absurd hseparators (by
            simp [Number.separatorsFit, Number.separatorsFitFrom, hdigit])
        · simpa [hunderscore] using hc

theorem scanNumeral_append (h : isNumeral cs = true)
    (hrest : ∀ c ∈ rest.head?, partsNumeral c = true) :
    scanNumeral (cs ++ rest) = (.ofNumeral (String.ofList cs), rest) := by
  obtain ⟨c, hc, hdigit⟩ := head?_of_isNumeral h
  have hpoint : ((cs ++ rest).head? == some '.') = false := by
    rw [List.head?_append, hc]
    simp only [Option.some_or, Option.some_beq_some, beq_eq_false_iff_ne]
    rintro rfl
    exact absurd hdigit (by decide)
  have hradix : numeralRadix (cs ++ rest) = numeralRadix cs :=
    numeralRadix_append (fun hcs => by rw [hcs] at hc; cases hc) hrest
  -- The mark of the base and the digits are those of the numeral alone, and behind them
  -- comes neither a fraction nor an exponent.
  unfold isNumeral at h
  have hprefix := numeralRadix_starts cs
  rcases hmark : numeralRadix cs with ⟨radix, mark⟩
  rw [hmark] at h hradix hprefix
  simp only [Bool.and_eq_true, beq_iff_eq] at h
  obtain ⟨⟨⟨hrun, hdigits⟩, hvalid⟩, hseparators⟩ := h
  have hdrop : (cs ++ rest).drop mark.length = cs.drop mark.length ++ rest :=
    List.drop_append_of_le_length hprefix.length_le
  have hwhole : digitRun (radix == .hexadecimal) ((cs ++ rest).drop mark.length)
      = cs.drop mark.length := by
    rw [hdrop]
    exact digitRun_append hrun hrest
  have hafter : (cs ++ rest).drop (mark.length + (cs.drop mark.length).length) = rest := by
    rw [← List.drop_drop, hdrop, List.drop_left]
  obtain ⟨hpointed, hahead⟩ : (rest.head? == some '.') = false ∧ zeroAhead rest = [] := by
    cases rest with
    | nil => exact ⟨rfl, rfl⟩
    | cons d rest =>
        obtain ⟨-, ⟨-, hdot, hzero⟩, -⟩ := partsNumeral_iff.1 (hrest d rfl)
        simp [zeroAhead, hdot, hzero]
  have htext : (cs ++ rest).take ((cs ++ rest).length - rest.length) = cs := by simp
  have hinvalid : firstInvalidDigit radix (cs.drop mark.length) = none := by simpa using hvalid
  have hempty : (radix != .leadingZero && (cs.drop mark.length).all (· == '_')) = false := by
    simpa [bne, or_iff_not_imp_left] using hdigits
  have hfit : (cs.contains '_' && !Number.separatorsFit cs) = false := by
    simpa [imp_iff_not_or] using hseparators
  simp only [scanNumeral, hpoint, hradix, hwhole, hafter, hpointed, exponentAhead?_none hrest,
    hahead, htext, hinvalid, hempty, hfit, Bool.false_eq_true, if_false, List.append_nil,
    List.drop_zero, List.length_nil, Bool.or_false, Bool.false_and, Bool.and_false,
    Option.isSome_none]
  rfl

theorem scanToken_numeral (h : isNumeral cs = true)
    (hrest : ∀ c ∈ rest.head?, partsNumeral c = true) :
    scanToken (cs ++ rest) = (.ofNumeral (String.ofList cs), rest) := by
  rw [← scanNumeral_append h hrest]
  obtain ⟨c, hc, hdigit⟩ := head?_of_isNumeral h
  obtain ⟨cs, rfl⟩ : ∃ ds, cs = c :: ds := List.head?_eq_some_iff.1 hc
  rw [List.cons_append, scanToken, startsIdentifier_of_isDigit hdigit]
  simp [hdigit]

/-- A character that can stand behind a word without becoming part of it, in
    expressions as they are written: the next step of an origin, the end of an index, a
    blank or the end of a group. -/
def endsWord (c : Char) : Bool :=
  ['.', '[', ']', ' ', ')'].contains c

theorem not_continuesIdentifier (h : endsWord c = true) :
    continuesIdentifier c = false ∧ partsMark c = true := by
  have hall : (['.', '[', ']', ' ', ')'].all fun c =>
      !continuesIdentifier c && partsMark c) = true := by decide +kernel
  have hc := List.all_eq_true.1 hall c (List.contains_iff_mem.1 h)
  simpa using hc

theorem isSeparator_of_startsIdentifier (h : startsIdentifier c = true) :
    isSeparator c = false ∧ Number.isDigit c = false ∧ partsMark c = true := by
  have hne : ∀ d, startsIdentifier d = false → c ≠ d := fun _ => ne_of_class h
  refine ⟨?_, ?_, ?_⟩
  · simp [isSeparator, hne '\t' rfl, hne '\n' rfl, hne '\r' rfl, hne ' ' rfl]
  · by_contra hdigit
    rw [startsIdentifier_of_isDigit (by simpa using hdigit)] at h
    cases h
  · simp [partsMark, hne '=' rfl, hne '&' rfl, hne '|' rfl, hne '\x00' rfl]

theorem isSeparator_of_isDigit (h : Number.isDigit c = true) :
    isSeparator c = false ∧ partsMark c = true := by
  have hne : ∀ d, Number.isDigit d = false → c ≠ d := fun _ => ne_of_class h
  constructor
  · simp [isSeparator, hne '\t' rfl, hne '\n' rfl, hne '\r' rfl, hne ' ' rfl]
  · simp [partsMark, hne '=' rfl, hne '&' rfl, hne '|' rfl, hne '\x00' rfl]

theorem head?_of_isWord (h : isWord cs = true) : ∃ c ∈ cs.head?, startsIdentifier c = true := by
  cases cs with
  | nil => cases h
  | cons c cs =>
      simp only [isWord, Bool.and_eq_true] at h
      exact ⟨c, rfl, h.1⟩

theorem Scans.word {name : String} (hname : isWord name.toList = true)
    (hrest : ∀ c ∈ rest.head?, endsWord c = true) (h : Scans rest ts) :
    Scans (name.toList ++ rest) (.ofWord name :: ts) := by
  obtain ⟨c, hc, hstart⟩ := head?_of_isWord hname
  have hscan := scanToken_word hname (fun c hc => (not_continuesIdentifier (hrest c hc)).1)
    fun hzero => absurd (hrest _ hzero) (by decide)
  rw [String.ofList_toList] at hscan
  exact .token ⟨c, hc, (isSeparator_of_startsIdentifier hstart).1⟩ hscan h

theorem Scans.mark {mark : String} (hmark : mark ∈ marks)
    (hrest : ∀ c ∈ rest.head?, partsMark c = true)
    (hpoint : mark = "." → ∀ c ∈ rest.head?, Number.isDigit c = false) (h : Scans rest ts) :
    Scans (mark.toList ++ rest) (.ofMark mark :: ts) := by
  have hhead : ∀ mark ∈ marks, mark.toList.head?.any (!isSeparator ·) = true := by decide
  obtain ⟨c, hc, hnot⟩ := (Option.any_eq_true _ _).1 (hhead mark hmark)
  exact .token ⟨c, hc, Bool.not_eq_true' _ ▸ hnot⟩ (scanToken_mark hmark hrest hpoint) h

theorem Scans.numeral {digits : String} (hdigits : isNumeral digits.toList = true)
    (hrest : ∀ c ∈ rest.head?, partsNumeral c = true) (h : Scans rest ts) :
    Scans (digits.toList ++ rest) (.ofNumeral digits :: ts) := by
  obtain ⟨c, hc, hdigit⟩ := head?_of_isNumeral hdigits
  have hscan := scanToken_numeral hdigits hrest
  rw [String.ofList_toList] at hscan
  exact .token ⟨c, hc, (isSeparator_of_isDigit hdigit).1⟩ hscan h

theorem eq_of_mem_head?_append (hc : c ∈ cs.head?) : ∀ d ∈ (cs ++ rest).head?, d = c := by
  intro d hd
  rw [List.head?_append, hc] at hd
  exact (Option.some.inj hd).symm

/-- The name of a field is cut off behind its dot. -/
theorem Scans.field {name : String} (hname : isWord name.toList = true)
    (hrest : ∀ c ∈ rest.head?, endsWord c = true) (h : Scans rest ts) :
    Scans ('.' :: (name.toList ++ rest)) (.ofMark "." :: .ofWord name :: ts) := by
  have hdot : "." ∈ marks := by decide
  obtain ⟨c, hc, hstart⟩ := head?_of_isWord hname
  obtain ⟨-, hdigit, hmark⟩ := isSeparator_of_startsIdentifier hstart
  have hhead : ∀ d ∈ (name.toList ++ rest).head?, d = c := eq_of_mem_head?_append hc
  exact (h.word hname hrest).mark hdot (fun d hd => hhead d hd ▸ hmark)
    fun _ d hd => hhead d hd ▸ hdigit

/-- An index is cut out of its brackets. -/
theorem Scans.index {i : String} (hi : isNumeral i.toList = true)
    (hrest : ∀ c ∈ rest.head?, endsWord c = true) (h : Scans rest ts) :
    Scans ('[' :: (i.toList ++ ']' :: rest))
      (.ofMark "[" :: .ofNumeral i :: .ofMark "]" :: ts) := by
  have hopen : "[" ∈ marks := by decide
  have hclose : "]" ∈ marks := by decide
  have hbracket : partsNumeral ']' = true := by decide
  have hinner := (h.mark hclose (fun c hc => (not_continuesIdentifier (hrest c hc)).2)
    fun hpoint => absurd hpoint (by decide)).numeral hi (by simpa using hbracket)
  obtain ⟨c, hc, hdigit⟩ := head?_of_isNumeral hi
  have hhead : ∀ d ∈ (i.toList ++ ']' :: rest).head?, d = c := eq_of_mem_head?_append hc
  exact hinner.mark hopen (fun d hd => hhead d hd ▸ (isSeparator_of_isDigit hdigit).2)
    fun hpoint => absurd hpoint (by decide)

/-- The text is cut into tokens, and so it is in front of a blank or the end of a group. -/
def Lexes (text : String) (us : List Token) : Prop :=
  ∀ rest ts, (∀ c ∈ rest.head?, c = ' ' ∨ c = ')') → Scans rest ts →
    Scans (text.toList ++ rest) (us ++ ts)

theorem Lexes.blank {text text' : String} {us us' : List Token} (h : Lexes text us)
    (h' : Lexes text' us') : Lexes (text ++ " " ++ text') (us ++ us') := by
  intro rest ts hrest hts
  have hblank := h _ _ (by simp) (h' rest ts hrest hts).blank
  simpa using hblank

theorem Lexes.word {name : String} (hname : isWord name.toList = true) :
    Lexes name [.ofWord name] := by
  intro rest ts hrest hts
  refine hts.word hname fun c hc => ?_
  rcases hrest c hc with rfl | rfl <;> rfl

theorem Lexes.mark {mark : String} (hmark : mark ∈ marks) : Lexes mark [.ofMark mark] := by
  intro rest ts hrest hts
  have hends : ∀ c ∈ rest.head?, partsMark c = true ∧ Number.isDigit c = false := by
    intro c hc
    rcases hrest c hc with rfl | rfl <;> decide
  exact hts.mark hmark (fun c hc => (hends c hc).1) fun _ c hc => (hends c hc).2

theorem Lexes.numeral {digits : String} (hdigits : isNumeral digits.toList = true) :
    Lexes digits [.ofNumeral digits] := by
  intro rest ts hrest hts
  refine hts.numeral hdigits fun c hc => ?_
  rcases hrest c hc with rfl | rfl <;> decide

/-- The letter of a long behind a numeral is a token of its own. -/
theorem Lexes.long {digits : String} (hdigits : isNumeral digits.toList = true) :
    Lexes (digits ++ "L") [.ofNumeral digits, .ofWord "L"] := by
  intro rest ts hrest hts
  have hletter : isWord "L".toList = true := by decide
  have hparts : partsNumeral 'L' = true := by decide
  have hboth := (Lexes.word hletter rest ts hrest hts).numeral hdigits (by simpa using hparts)
  simpa using hboth

/-- A mark stands right before a text that does not go on with it. -/
theorem Lexes.before {mark text : String} {us : List Token} (hmark : mark ∈ marks)
    (hpoint : mark ≠ ".") (h : Lexes text us)
    (htext : ∀ c ∈ text.toList.head?, partsMark c = true) :
    Lexes (mark ++ text) (.ofMark mark :: us) := by
  intro rest ts hrest hts
  have hboth := (h rest ts hrest hts).mark hmark (fun c hc => ?_) fun hp => absurd hp hpoint
  · simpa using hboth
  · cases hcs : text.toList with
    | nil =>
        rw [hcs] at hc
        rcases hrest c hc with rfl | rfl <;> decide
    | cons d cs =>
        rw [hcs] at hc
        exact htext c (by rw [hcs]; exact hc)

theorem Lexes.group {text : String} {us : List Token} (h : Lexes text us)
    (htext : ∀ c ∈ text.toList.head?, partsMark c = true) :
    Lexes ("(" ++ text ++ ")") (.ofMark "(" :: us ++ [.ofMark ")"]) := by
  intro rest ts hrest hts
  have hopen : "(" ∈ marks := by decide
  have hclose : ")" ∈ marks := by decide
  have hinner := Lexes.before hopen (by decide) h htext (')' :: rest) (.ofMark ")" :: ts) (by simp)
    (Lexes.mark hclose rest ts hrest hts)
  simpa using hinner

end Expression

end PathWitness
