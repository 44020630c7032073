import PathWitness.Proofs.Expression.Phrase
import PathWitness.Proofs.Origin

/-!
# Texts That Stand for Terms

The reader knows tokens only, and the scanner knows nothing of what they mean. `Reads`
puts the two together: a text stands for a term at a level if its tokens are a phrase
for the term there. It is closed under the ways in which expressions are written, with
parentheses, with a unary operator in front and with a binary operator between, so a
printer is followed with one lemma for each way and without another look at characters.

Besides the tokens a text has to bring one fact about its first character. It may
neither continue a mark before it nor be the byte-order mark, which is skipped at the
start of an expression and nowhere else.

## Main definitions

* `Origin.isReadable`: An origin of identifiers and constant indices.
* `IntegerLiteral`: A literal with the number it denotes.
* `Cuts`: A text that starts with an operand, and its tokens.
* `Reads`: A text stands for a term at a level.

## Theorems

* `parse_path`: The path of a readable origin is read as the origin.
* `lexes_path`, `leads_path`: The tokens of a path, and what the reader makes of them.
* `IntegerLiteral.integerConst_eq`: A literal is read as its constant.
* `Cuts.grouped`, `Cuts.sign`, `Cuts.binary`: The tokens of texts that are put together.
* `Cuts.scan_eq`: A text is scanned into the tokens it is cut into.
* `Reads.truth`, `Reads.integer`, `Reads.origin`, `Reads.grouped`, `Reads.unary`,
  `Reads.sign`, `Reads.binary`: The ways in which expressions are written.
* `Reads.parse_eq`: A text that stands for a term is read as the term.
-/

namespace PathWitness

open Expression

/-- The step is an identifier after a dot or a constant index. -/
def Accessor.isReadable : Accessor → Bool
  | field name => isWord name.toList && name != "length"
  | index i => isNumeral i.toList
  | length => true

/-- The origin is made of identifiers and constant indices. -/
def Origin.isReadable (o : Origin) : Bool :=
  isWord o.root.toList && !valueWords.contains o.root && o.steps.all Accessor.isReadable

/-- The tokens of a step. -/
def Accessor.tokens : Accessor → List Token
  | field name => [.ofMark ".", .ofWord name]
  | index i => [.ofMark "[", .ofNumeral i, .ofMark "]"]
  | length => [.ofMark ".", .ofWord "length"]

/-- The tokens of an origin. -/
def Origin.tokens (o : Origin) : List Token :=
  .ofWord o.root :: o.steps.flatMap Accessor.tokens

namespace Expression

variable {c : Char} {cs rest : List Char} {us ts : List Token}

theorem continuesIdentifier_of_isWord (h : isWord cs = true) (hc : c ∈ cs) :
    continuesIdentifier c = true := by
  cases cs with
  | nil => cases hc
  | cons d cs =>
      simp only [isWord, Bool.and_eq_true, List.all_eq_true] at h
      rcases List.mem_cons.1 hc with rfl | hc
      · simp [continuesIdentifier, h.1]
      · exact h.2 c hc

theorem startsStep_of_isWord (h : isWord cs = true) (hc : c ∈ cs) :
    Origin.startsStep c = false := by
  have hne : ∀ d, continuesIdentifier d = false → c ≠ d := fun _ =>
    ne_of_class (continuesIdentifier_of_isWord h hc)
  simp [Origin.startsStep, hne '.' rfl, hne '[' rfl]

theorem bracket_notMem_of_isNumeral (h : isNumeral cs = true) : ']' ∉ cs := by
  unfold isNumeral at h
  simp only [Bool.and_eq_true, beq_iff_eq] at h
  have hdigits := List.takeWhile_eq_self_iff.1 h.1.1.1
  -- The mark of a base is a zero and a letter, and what follows are digits.
  have hmark : ']' ∉ (numeralRadix cs).2 := by
    unfold numeralRadix
    split
    · rename_i c _
      have hbase : ∀ d, Number.lowerAscii c = d → d ≠ ']' → ']' ∉ ['0', c] := by
        rintro d rfl hd hmem
        obtain rfl : ']' = c := by simpa using hmem
        exact hd rfl
      split
      · exact hbase _ ‹_› (by decide)
      · exact hbase _ ‹_› (by decide)
      · exact hbase _ ‹_› (by decide)
      · decide
    · decide
    · exact List.not_mem_nil
  intro hmem
  rw [← (List.prefix_iff_eq_append.1 (numeralRadix_starts cs))] at hmem
  rcases List.mem_append.1 hmem with hmem | hmem
  · exact hmark hmem
  · exact absurd (hdigits _ hmem) (by cases (numeralRadix cs).1 <;> decide)

theorem isFaithful_of_isReadable {a : Accessor} (h : a.isReadable = true) :
    a.isFaithful = true := by
  cases a with
  | field name =>
      simp only [Accessor.isReadable, Bool.and_eq_true, bne_iff_ne] at h
      have hname : name ≠ "" := by
        rintro rfl
        cases h.1
      have hplain : Origin.isPlain name = true :=
        Origin.isPlain_iff.2 fun c hc => startsStep_of_isWord h.1 hc
      simp [Accessor.isFaithful, hname, hplain, h.2]
  | index i => simpa [Accessor.isFaithful] using bracket_notMem_of_isNumeral h
  | length => rfl

theorem parse_path {o : Origin} (h : o.isReadable = true) : Origin.parse o.path = .ok o := by
  simp only [Origin.isReadable, Bool.and_eq_true] at h
  obtain ⟨⟨hroot, -⟩, hsteps⟩ := h
  obtain ⟨c, hc, hstart⟩ := head?_of_isWord hroot
  obtain ⟨ds, hds⟩ : ∃ ds, o.root.toList = c :: ds := List.head?_eq_some_iff.1 hc
  have hpath : o.path.toList
      = o.root.toList ++ (String.join (o.steps.map Accessor.text)).toList := by
    rw [Origin.path, String.toList_append]
  -- No identifier starts like the root mark.
  have hstrip : Origin.stripRootMark o.path = o.path := by
    have hbrace : c ≠ '\x7b' := by
      rintro rfl
      cases hstart
    rw [Origin.stripRootMark, if_neg]
    rw [hpath, hds]
    simp [Origin.rootMark, List.isPrefixOf, hbrace.symm]
  have hfaithful : o.steps.all Accessor.isFaithful = true :=
    List.all_eq_true.2 fun a ha => isFaithful_of_isReadable (List.all_eq_true.1 hsteps a ha)
  refine Origin.parse_eq_ok_iff.2 ⟨?_, ?_, _, ?_, Origin.spells_of_isFaithful hfaithful⟩
  · rintro hempty
    rw [hempty] at hds
    cases hds
  · exact Origin.isPlain_iff.2 fun c hc => startsStep_of_isWord hroot hc
  · rw [hstrip, hpath]

theorem Leads.steps {path : String} (h : Leads ts path) (steps : List Accessor) :
    Leads (ts ++ steps.flatMap Accessor.tokens)
      (path ++ String.join (steps.map Accessor.text)) := by
  induction steps generalizing ts path with
  | nil => simpa using h
  | cons a steps ih =>
      rw [List.flatMap_cons, List.map_cons, String.join_cons, ← List.append_assoc,
        ← String.append_assoc]
      cases a with
      | field name =>
          simpa [Accessor.text, Accessor.tokens, String.append_assoc] using ih (h.field name)
      | index i => simpa [Accessor.text, Accessor.tokens, String.append_assoc] using ih (h.index i)
      | length =>
          simpa [Accessor.text, Accessor.tokens, String.append_assoc] using ih (h.field "length")

theorem leads_path {o : Origin} (h : o.isReadable = true) : Leads o.tokens o.path := by
  simp only [Origin.isReadable, Bool.and_eq_true, Bool.not_eq_true'] at h
  exact (Leads.root (by simpa using h.1.2)).steps o.steps

theorem scans_steps {steps : List Accessor} (h : steps.all Accessor.isReadable = true)
    (hrest : ∀ c ∈ rest.head?, c = ' ' ∨ c = ')') (hts : Scans rest ts) :
    (∀ c ∈ ((String.join (steps.map Accessor.text)).toList ++ rest).head?, endsWord c = true) ∧
    Scans ((String.join (steps.map Accessor.text)).toList ++ rest)
      (steps.flatMap Accessor.tokens ++ ts) := by
  induction steps with
  | nil =>
      refine ⟨fun c hc => ?_, hts⟩
      rcases hrest c hc with rfl | rfl <;> rfl
  | cons a steps ih =>
      rw [List.all_cons, Bool.and_eq_true] at h
      obtain ⟨hends, hscans⟩ := ih h.2
      rw [List.map_cons, String.join_cons, String.toList_append, List.append_assoc,
        List.flatMap_cons]
      cases a with
      | field name =>
          simp only [Accessor.isReadable, Bool.and_eq_true] at h
          have hfield := hscans.field h.1.1 hends
          simpa [Accessor.text, Accessor.tokens, endsWord] using hfield
      | index i =>
          have hindex := hscans.index h.1 hends
          simpa [Accessor.text, Accessor.tokens, endsWord] using hindex
      | length =>
          have hword : isWord "length".toList = true := by decide
          have hfield := hscans.field hword hends
          simpa [Accessor.text, Accessor.tokens, endsWord] using hfield

theorem lexes_path {o : Origin} (h : o.isReadable = true) : Lexes o.path o.tokens := by
  intro rest ts hrest hts
  simp only [Origin.isReadable, Bool.and_eq_true] at h
  obtain ⟨hends, hscans⟩ := scans_steps h.2 hrest hts
  rw [Origin.path, String.toList_append, List.append_assoc]
  exact hscans.word h.1.1 hends

/-- An integer literal, with the letter of a long or without it. -/
structure IntegerLiteral where
  /-- The numeral. -/
  digits : String
  /-- The numeral is one. -/
  isNumeral : isNumeral digits.toList = true
  /-- The number. -/
  value : Int64
  /-- The numeral denotes the number. -/
  denotes : Number.parseInteger digits.toList = .ok value
  /-- The letter of a long follows. -/
  long : Bool

/-- The literal as it is written. -/
def IntegerLiteral.text (l : IntegerLiteral) : String :=
  if l.long then l.digits ++ "L" else l.digits

/-- The constant of a literal: a `long` if it is marked or does not fit into an `int`. -/
def IntegerLiteral.const (l : IntegerLiteral) : Const :=
  if l.long || l.value > 2147483647 then .long l.value else .int l.value.toInt32

/-- A numeral has no sign. -/
theorem splitSign_of_isNumeral (h : isNumeral cs = true) :
    Number.splitSign cs = (false, cs) := by
  obtain ⟨c, hc, hdigit⟩ := head?_of_isNumeral h
  obtain ⟨ds, rfl⟩ : ∃ ds, cs = c :: ds := List.head?_eq_some_iff.1 hc
  have hne : ∀ d, Number.isDigit d = false → c ≠ d := fun _ => ne_of_class hdigit
  simp [Number.splitSign, hne '-' rfl, hne '+' rfl]

theorem nonneg_of_isNumeral {n : Int64} (h : isNumeral cs = true)
    (hn : Number.parseInteger cs = .ok n) : 0 ≤ n := by
  unfold Number.parseInteger at hn
  simp only [splitSign_of_isNumeral h, Bool.false_eq_true, if_false] at hn
  cases hnatural : Number.parseNatural cs with
  | none =>
      rw [hnatural] at hn
      cases hn
  | some k =>
      rw [hnatural] at hn
      by_cases hk : k < Number.pow2 63
      · simp only [hk, if_true, Except.ok.injEq] at hn
        rw [← hn, Int64.le_iff_toInt_le, Int64.toInt_ofNat_of_lt hk]
        exact Int.natCast_nonneg k
      · simp [hk] at hn

theorem IntegerLiteral.integerConst_eq {ε : Type} (l : IntegerLiteral) :
    (integerConst l.digits l.long : Except (ExprFault ε) Const) = .ok l.const := by
  have hnonneg := nonneg_of_isNumeral l.isNumeral l.denotes
  have hleast : ¬ l.value < -2147483648 := by
    have hbound : (-2147483648 : Int64).toInt = -2147483648 := by decide
    rw [Int64.lt_iff_toInt_lt, hbound]
    rw [Int64.le_iff_toInt_le, Int64.toInt_zero] at hnonneg
    omega
  simp only [integerConst, l.denotes, IntegerLiteral.const, hleast, decide_false, Bool.or_false]
  by_cases hlong : (l.long || decide (l.value > 2147483647)) = true
  · rw [if_pos hlong, if_pos hlong]
  · rw [if_neg hlong, if_neg hlong]

variable {ε : Type} {m : Type → Type} [Monad m] {lookup : Origin → m (Except ε (Option Value))}
  {level : Nat} {text text' : String} {t t' : Term}

/-- A character that an operand starts with. -/
def startsOperand (c : Char) : Bool :=
  partsMark c && c != '\ufeff'

/-- A text stands for a term where only operators that bind tighter than a level need
    no parentheses. -/
structure Reads (lookup : Origin → m (Except ε (Option Value))) (level : Nat) (text : String)
    (t : Term) : Prop where
  /-- Nothing before the text becomes part of it. -/
  starts : ∀ c ∈ text.toList.head?, startsOperand c = true
  /-- The tokens of the text stand for the term. -/
  phrase : ∃ ts, Lexes text ts ∧ Phrase lookup level ts t

theorem startsOperand_of_startsIdentifier (h : startsIdentifier c = true) :
    startsOperand c = true := by
  have hmark := (isSeparator_of_startsIdentifier h).2.2
  have hne : c ≠ '\ufeff' := by
    rintro rfl
    exact absurd h (by decide +kernel)
  simp [startsOperand, hmark, hne]

theorem startsOperand_of_isDigit (h : Number.isDigit c = true) : startsOperand c = true := by
  have hmark := (isSeparator_of_isDigit h).2
  have hne : c ≠ '\ufeff' := by
    rintro rfl
    cases h
  simp [startsOperand, hmark, hne]

theorem startsOperand_head (text : String) (h : text.toList.head?.all startsOperand = true) :
    ∀ c ∈ text.toList.head?, startsOperand c = true :=
  (Option.all_eq_true _ _).1 h

theorem startsOperand_append {text text' : String}
    (h : ∀ c ∈ text.toList.head?, startsOperand c = true)
    (h' : ∀ c ∈ text'.toList.head?, startsOperand c = true) :
    ∀ c ∈ (text ++ text').toList.head?, startsOperand c = true := by
  intro c hc
  rw [String.toList_append, List.head?_append] at hc
  rcases Option.or_eq_some_iff.1 hc with hc | ⟨-, hc⟩
  · exact h c hc
  · exact h' c hc

theorem Reads.truth (b : Bool) :
    Reads lookup level (if b then "true" else "false") (.const (.boolean b)) := by
  refine ⟨startsOperand_head _ (by cases b <;> decide), _, .word ?_, .truth b⟩
  cases b <;> decide

theorem Reads.integer (l : IntegerLiteral) : Reads lookup level l.text (.const l.const) := by
  obtain ⟨c, hc, hdigit⟩ := head?_of_isNumeral l.isNumeral
  have hstart : ∀ c ∈ l.digits.toList.head?, startsOperand c = true := by
    intro d hd
    rw [hc] at hd
    exact Option.some.inj hd ▸ startsOperand_of_isDigit hdigit
  have hconst := l.integerConst_eq (ε := ε)
  unfold IntegerLiteral.text
  cases hlong : l.long with
  | true =>
      rw [hlong] at hconst
      exact ⟨startsOperand_append hstart (startsOperand_head _ (by decide)), _, .long l.isNumeral,
        .long hconst⟩
  | false =>
      rw [hlong] at hconst
      exact ⟨hstart, _, .numeral l.isNumeral, .integer hconst⟩

theorem Reads.origin {o : Origin} (h : o.isReadable = true)
    (ht : lookup o = pure (.ok (some (.term t)))) : Reads lookup level o.path t := by
  refine ⟨?_, o.tokens, lexes_path h, .origin (leads_path h) (parse_path h) ht⟩
  simp only [Origin.isReadable, Bool.and_eq_true] at h
  obtain ⟨c, hc, hstart⟩ := head?_of_isWord h.1.1
  intro d hd
  rw [Origin.path, String.toList_append] at hd
  exact eq_of_mem_head?_append hc d hd ▸ startsOperand_of_startsIdentifier hstart

/-- A text that starts with an operand, and the tokens it is cut into. -/
structure Cuts (text : String) (ts : List Token) : Prop where
  /-- Nothing before the text becomes part of it. -/
  starts : ∀ c ∈ text.toList.head?, startsOperand c = true
  /-- The tokens of the text. -/
  lexes : Lexes text ts

theorem Cuts.partsMark (h : Cuts text ts) : ∀ c ∈ text.toList.head?, partsMark c = true := by
  intro c hc
  have hstart := h.starts c hc
  simp only [startsOperand, Bool.and_eq_true] at hstart
  exact hstart.1

theorem Cuts.grouped (h : Cuts text ts) :
    Cuts ("(" ++ text ++ ")") (.ofMark "(" :: ts ++ [.ofMark ")"]) := by
  have hopen := startsOperand_append (startsOperand_head "(" (by decide)) h.starts
  exact ⟨startsOperand_append hopen (startsOperand_head _ (by decide)),
    h.lexes.group h.partsMark⟩

theorem Cuts.sign (op : UnaryOperator) (h : Cuts text ts) :
    Cuts (op.symbol ++ text) (.ofMark op.symbol :: ts) := by
  have hsymbol := startsOperand_head op.symbol (by cases op <;> decide)
  refine ⟨startsOperand_append hsymbol h.starts, .before ?_ ?_ h.lexes h.partsMark⟩
  · cases op <;> decide
  · cases op <;> decide

theorem Cuts.binary {symbol : String} (hsymbol : symbol ∈ marks) (h : Cuts text ts)
    (h' : Cuts text' us) : Cuts (text ++ " " ++ symbol ++ " " ++ text')
      (ts ++ .ofMark symbol :: us) := by
  have hlexes := ((h.lexes.blank (.mark hsymbol)).blank h'.lexes)
  rw [List.append_assoc] at hlexes
  have hblank : ∀ c ∈ (" " ++ (symbol ++ (" " ++ text'))).toList.head?, startsOperand c = true := by
    intro c hc
    obtain rfl : ' ' = c := by simpa using hc
    decide
  have hstarts := startsOperand_append h.starts hblank
  simp only [← String.append_assoc] at hstarts
  exact ⟨hstarts, hlexes⟩

theorem Reads.cuts (h : Reads lookup level text t) :
    ∃ ts, Cuts text ts ∧ Phrase lookup level ts t := by
  obtain ⟨hstarts, ts, hlexes, hphrase⟩ := h
  exact ⟨ts, ⟨hstarts, hlexes⟩, hphrase⟩

theorem Cuts.reads (h : Cuts text ts) (ht : Phrase lookup level ts t) :
    Reads lookup level text t :=
  ⟨h.starts, ts, h.lexes, ht⟩

theorem Reads.grouped (h : Reads lookup 0 text t) : Reads lookup level ("(" ++ text ++ ")") t := by
  obtain ⟨ts, hcuts, hphrase⟩ := h.cuts
  exact hcuts.grouped.reads (.grouped hphrase)

theorem Reads.unary {op : UnaryOperator} (h : Reads lookup 9 text t)
    (ht : (applyUnary op (some (.term t)) : Except (ExprFault ε) _) = .ok (some (.term t'))) :
    Reads lookup level (op.symbol ++ " " ++ text) t' := by
  obtain ⟨hstart, ts, hlexes, hphrase⟩ := h
  have hmark : op.symbol ∈ marks := by cases op <;> decide
  have hsymbol := startsOperand_head op.symbol (by cases op <;> decide)
  have hblank := startsOperand_append hsymbol (startsOperand_head " " (by decide))
  exact ⟨startsOperand_append hblank hstart, _, (Lexes.mark hmark).blank hlexes,
    .unary hphrase ht⟩

theorem Reads.sign {op : UnaryOperator} (h : Reads lookup 9 text t)
    (ht : (applyUnary op (some (.term t)) : Except (ExprFault ε) _) = .ok (some (.term t'))) :
    Reads lookup level (op.symbol ++ text) t' := by
  obtain ⟨ts, hcuts, hphrase⟩ := h.cuts
  exact (hcuts.sign op).reads (.unary hphrase ht)

theorem Reads.binary {op : Spelling} {symbol : String} {a b : Term}
    (hop : spelling? symbol = some op) (hlevel : level < op.level)
    (ha : Reads lookup (op.level - 1) text a) (hb : Reads lookup op.level text' b)
    (ht : (applyBinary op (some (.term a)) (some (.term b)) : Except (ExprFault ε) _)
      = .ok (some (.term t))) :
    Reads lookup level (text ++ " " ++ symbol ++ " " ++ text') t := by
  obtain ⟨ts, hcuts, hphrase⟩ := ha.cuts
  obtain ⟨us, hcuts', hphrase'⟩ := hb.cuts
  exact (hcuts.binary (mark_of_spelling hop).1 hcuts').reads
    (.binary hop hlevel hphrase hphrase' ht)

theorem Cuts.scan_eq (h : Cuts text ts) : Token.scan text = ts := by
  -- What is skipped at the start of a text is not there.
  have hmark : ¬ (text.toList.head? == some '\ufeff') = true := by
    intro hmark
    exact absurd (h.starts _ (by simpa using hmark)) (by decide)
  unfold Token.scan
  simp only [hmark, Bool.false_eq_true, if_false]
  have hall := h.lexes [] [] (by simp) .nil
  rw [List.append_nil, List.append_nil] at hall
  exact hall _ (Nat.le_refl _)

theorem Reads.parse_eq [LawfulMonad m] (h : Reads lookup 0 text t) :
    parse lookup text = pure (.ok (some (.term t))) := by
  obtain ⟨ts, hcuts, hphrase⟩ := h.cuts
  refine Phrase.parse_eq ?_
  rw [hcuts.scan_eq]
  exact hphrase

end Expression

end PathWitness
