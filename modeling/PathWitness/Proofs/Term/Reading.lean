import PathWitness.Proofs.Rule.Table
import PathWitness.Term

/-!
# Texts are Read in One Way

The text of a term does not tell everything about the term. The type of a constant
is dropped unless it is `long`, a symbol is shown by its number, and unary operators
have no parentheses, so that a negative constant looks like the negation of a
positive one. A `Reading` is what can be recovered.

A text has one reading. It says by its first character what it is the text of, and
nothing that can follow it, in parentheses or in a list, could also be its
continuation. The conditions of a list are joined by the sign that also stands
between the operands of a conjunction, but conjunctions are in parentheses, so the
list is recovered too.

## Main definitions

* `Sign`: The sign of a binary operator.
* `Reading`: What the text of a term tells.
* `Reading.chars`: The text that a reading is read off.
* `Reading.joined`: The text of a list of conditions.

## Theorems

* `BinaryOperator.symbolFor_spec`: An operator is read back from its sign.
* `Reading.kind_eq`: Texts that begin alike are texts of one kind.
* `Reading.chars_inj`: A text has one reading, and one end.
* `Reading.joined_inj`: The text of a list has one reading.
-/

namespace PathWitness

namespace BinaryOperator

theorem symbolFor_cases (op : BinaryOperator) (t : Prim) :
    op.symbolFor t = op.symbol ∨ ∃ c, op = .connective c ∧ op.symbolFor t = c.bitwiseSymbol := by
  cases op with
  | connective c =>
      by_cases ht : t = .boolean
      · exact .inl (if_pos ht)
      · exact .inr ⟨c, rfl, if_neg ht⟩
  | arithmetic o => exact .inl rfl
  | shift s => exact .inl rfl
  | comparison c => exact .inl rfl

/-- An operator is read back from the sign it is written as, between truth values
    and between numbers, and the sign has no blank in it. -/
theorem symbolFor_spec (op : BinaryOperator) (t : Prim) :
    Operator.ofSymbol? (op.symbolFor t) = some (.binary op) ∧ ' ' ∉ (op.symbolFor t).toList := by
  rcases op.symbolFor_cases t with h | ⟨c, rfl, h⟩
  · rw [h]
    cases op with
    | arithmetic o => cases o <;> decide
    | connective c => cases c <;> decide
    | shift s => cases s <;> decide
    | comparison c => cases c <;> decide
  · rw [h]
    cases c <;> decide

end BinaryOperator

/-- The sign of a binary operator. -/
@[ext]
structure Sign where
  symbol : String
  /-- Some operator is written so. -/
  written : ∃ (op : BinaryOperator) (t : Prim), op.symbolFor t = symbol

namespace Sign

/-- The operator that is written as the sign. -/
def operator? (s : Sign) : Option BinaryOperator :=
  match Operator.ofSymbol? s.symbol with
  | some (.binary op) => some op
  | _ => none

/-- The sign of an operator whose application has the given type. -/
def of (op : BinaryOperator) (t : Prim) : Sign :=
  ⟨op.symbolFor t, op, t, rfl⟩

theorem operator?_of (op : BinaryOperator) (t : Prim) : (of op t).operator? = some op := by
  simp only [operator?, of, (op.symbolFor_spec t).1]

theorem blank_not_mem (s : Sign) : ' ' ∉ s.symbol.toList := by
  obtain ⟨op, t, h⟩ := s.written
  rw [← h]
  exact (op.symbolFor_spec t).2

end Sign

theorem Prim.letter_inj {p q : Prim} (h : p.letter = q.letter) : p = q :=
  Option.some.inj (by rw [← ofLetter?_letter p, h, ofLetter?_letter])

/-- What the text of a term tells. -/
inductive Reading where
  | truth (b : Bool)
  /-- A number without its sign, and whether it is marked as a `long`. -/
  | number (n : Nat) (long : Bool)
  | symbol (n : Nat)
  | unary (op : UnaryOperator) (arg : Reading)
  | binary (sign : Sign) (left right : Reading)
  | convert (direction : Conversion) (origin dest : Prim) (arg : Reading)

namespace Reading

/-- The mark of a `long`. -/
def mark (long : Bool) : List Char :=
  if long then ['L'] else []

/-- The text that a reading is read off. -/
def chars : Reading → List Char
  | truth b => (if b then "true" else "false").toList
  | number n long => Nat.toDigits 10 n ++ mark long
  | symbol n => '\x7b' :: 'V' :: (Nat.toDigits 10 n ++ ['\x7d'])
  | unary op arg => op.symbol.toList ++ arg.chars
  | binary sign left right =>
    '(' :: (left.chars ++ ' ' :: (sign.symbol.toList ++ ' ' :: (right.chars ++ [')'])))
  | convert direction origin dest arg =>
    direction.word.toList ++ origin.letter :: dest.letter :: '(' :: (arg.chars ++ [')'])

/-- What can be read at a place of a text. -/
inductive Kind where
  | truth
  | number
  | symbol
  | unary
  | binary
  | convert

/-- What a reading is at its outside. -/
def kind : Reading → Kind
  | truth _ => .truth
  | number _ _ => .number
  | symbol _ => .symbol
  | unary _ _ => .unary
  | binary _ _ _ => .binary
  | convert _ _ _ _ => .convert

/-- The kind that the first character of a text tells. -/
def kindOf (c : Char) : Kind :=
  if c.isDigit then .number
  else match c with
    | 't' | 'f' => .truth
    | '\x7b' => .symbol
    | '-' | '!' => .unary
    | '(' => .binary
    | _ => .convert

theorem chars_cons (r : Reading) : ∃ c rest, r.chars = c :: rest ∧ kindOf c = r.kind := by
  cases r with
  | truth b => cases b <;> exact ⟨_, _, rfl, rfl⟩
  | number n long =>
      cases hdigits : Nat.toDigits 10 n with
      | nil => exact absurd hdigits Nat.toDigits_ne_nil
      | cons c rest =>
          have hdigit : c.isDigit = true :=
            Nat.isDigit_of_mem_toDigits (by omega) (by omega) (hdigits ▸ List.mem_cons_self)
          exact ⟨c, rest ++ mark long, by rw [chars, hdigits]; rfl, if_pos hdigit⟩
  | symbol n => exact ⟨_, _, rfl, rfl⟩
  | unary op arg => cases op <;> exact ⟨_, _, rfl, rfl⟩
  | binary sign left right => exact ⟨_, _, rfl, rfl⟩
  | convert direction origin dest arg => cases direction <;> exact ⟨_, _, rfl, rfl⟩

/-- Texts that begin alike are texts of one kind. -/
theorem kind_eq {r r' : Reading} {rest rest' : List Char}
    (h : r.chars ++ rest = r'.chars ++ rest') : r.kind = r'.kind := by
  obtain ⟨c, cs, hr, hc⟩ := chars_cons r
  obtain ⟨c', cs', hr', hc'⟩ := chars_cons r'
  rw [hr, hr'] at h
  rw [← hc, ← hc', (List.cons.inj h).1]

/-- What may follow a text without being read as part of it. -/
def Ends (rest : List Char) : Prop :=
  ∀ c ∈ rest.head?, c.isDigit = false ∧ c ≠ 'L'

theorem ends_nil : Ends [] :=
  fun _ hc => absurd hc (by simp only [List.head?_nil, Option.mem_def, reduceCtorEq,
    not_false_eq_true])

theorem ends_cons {c : Char} (hdigit : c.isDigit = false) (hmark : c ≠ 'L') (rest : List Char) :
    Ends (c :: rest) := by
  intro x hx
  obtain rfl : c = x := Option.some.inj hx
  exact ⟨hdigit, hmark⟩

/-- The digits at the start of a text end where the first other character is. -/
theorem takeWhile_digits {a b : List Char} (ha : ∀ c ∈ a, c.isDigit = true)
    (hb : ∀ c ∈ b.head?, c.isDigit = false) : (a ++ b).takeWhile Char.isDigit = a := by
  rw [List.takeWhile_append_of_pos ha]
  cases b with
  | nil => exact List.append_nil a
  | cons c b =>
      rw [List.takeWhile_cons, hb c rfl]
      exact List.append_nil a

theorem toDigits_split {m n : Nat} {b d : List Char} (hb : ∀ c ∈ b.head?, c.isDigit = false)
    (hd : ∀ c ∈ d.head?, c.isDigit = false)
    (h : Nat.toDigits 10 m ++ b = Nat.toDigits 10 n ++ d) : m = n ∧ b = d := by
  have hdigits : ∀ k, ∀ c ∈ Nat.toDigits 10 k, c.isDigit = true :=
    fun k c hc => Nat.isDigit_of_mem_toDigits (by omega) (by omega) hc
  have htake := congrArg (List.takeWhile Char.isDigit) h
  rw [takeWhile_digits (hdigits m) hb, takeWhile_digits (hdigits n) hd] at htake
  refine ⟨?_, List.append_cancel_left (htake ▸ h)⟩
  rw [← Nat.ofDigitChars_ten_toDigits (n := m), htake, Nat.ofDigitChars_ten_toDigits]

/-- Words that differ in their first characters are told apart wherever they
    stand. -/
theorem word_split {α : Type} (word : α → List Char) (hne : ∀ a, word a ≠ [])
    (hfirst : ∀ a b, (word a).head? = (word b).head? → a = b) {a b : α} {x y : List Char}
    (h : word a ++ x = word b ++ y) : a = b ∧ x = y := by
  have hhead := congrArg List.head? h
  rw [List.head?_append_of_ne_nil _ (hne a), List.head?_append_of_ne_nil _ (hne b)] at hhead
  obtain rfl := hfirst a b hhead
  exact ⟨rfl, List.append_cancel_left h⟩

theorem mark_split {long long' : Bool} {rest rest' : List Char} (hrest : Ends rest)
    (hrest' : Ends rest') (h : mark long ++ rest = mark long' ++ rest') :
    long = long' ∧ rest = rest' := by
  cases long <;> cases long'
  · exact ⟨rfl, h⟩
  · obtain rfl : rest = 'L' :: rest' := h
    exact absurd rfl (hrest _ rfl).2
  · obtain rfl : 'L' :: rest = rest' := h
    exact absurd rfl (hrest' _ rfl).2
  · exact ⟨rfl, (List.cons.inj h).2⟩

theorem head_mark {long : Bool} {rest : List Char} (hrest : Ends rest) :
    ∀ c ∈ (mark long ++ rest).head?, c.isDigit = false := by
  intro c hc
  cases long with
  | false => exact (hrest c hc).1
  | true =>
      obtain rfl : 'L' = c := Option.some.inj hc
      decide

/-- A text has one reading, and one end. -/
theorem chars_inj {r r' : Reading} {rest rest' : List Char} (hrest : Ends rest)
    (hrest' : Ends rest') (h : r.chars ++ rest = r'.chars ++ rest') : r = r' ∧ rest = rest' := by
  have hblank (l : List Char) : Ends (' ' :: l) := ends_cons rfl (by decide) l
  have hclose (l : List Char) : Ends (')' :: l) := ends_cons rfl (by decide) l
  -- The texts go on after the readings, since operands stand inside other texts.
  induction r generalizing r' rest rest' with
  | truth b =>
      cases r' with
      | truth b' =>
          obtain ⟨rfl, hend⟩ := word_split (fun b : Bool => (if b then "true" else "false").toList)
            (by decide) (by decide) h
          exact ⟨rfl, hend⟩
      | _ => cases kind_eq h
  | number n long =>
      cases r' with
      | number n' long' =>
          -- Here alone it matters how the texts go on.
          rw [chars, chars, List.append_assoc, List.append_assoc] at h
          obtain ⟨rfl, hmark⟩ := toDigits_split (head_mark hrest) (head_mark hrest') h
          obtain ⟨rfl, hend⟩ := mark_split hrest hrest' hmark
          exact ⟨rfl, hend⟩
      | _ => cases kind_eq h
  | symbol n =>
      cases r' with
      | symbol n' =>
          simp only [chars, List.cons_append, List.append_assoc, List.cons.injEq, true_and] at h
          have hbrace (l : List Char) : ∀ c ∈ ('\x7d' :: l).head?, c.isDigit = false :=
            fun c hc => (ends_cons rfl (by decide) l c hc).1
          obtain ⟨rfl, hend⟩ := toDigits_split (hbrace _) (hbrace _) h
          exact ⟨rfl, (List.cons.inj hend).2⟩
      | _ => cases kind_eq h
  | unary op arg ih =>
      cases r' with
      | unary op' arg' =>
          rw [chars, chars, List.append_assoc, List.append_assoc] at h
          obtain ⟨rfl, harg⟩ := word_split (fun op : UnaryOperator => op.symbol.toList)
            (fun a => by cases a <;> decide) (fun a b => by cases a <;> cases b <;> decide) h
          obtain ⟨rfl, hend⟩ := ih hrest hrest' harg
          exact ⟨rfl, hend⟩
      | _ => cases kind_eq h
  | binary sign left right ihl ihr =>
      cases r' with
      | binary sign' left' right' =>
          simp only [chars, List.cons_append, List.append_assoc, List.cons.injEq, true_and] at h
          obtain ⟨rfl, hsign⟩ := ihl (hblank _) (hblank _) h
          obtain ⟨hsign, hright⟩ := split_first sign.blank_not_mem sign'.blank_not_mem
            (List.cons.inj hsign).2
          obtain rfl : sign = sign' := Sign.ext (String.toList_inj.1 hsign)
          obtain ⟨rfl, hend⟩ := ihr (hclose _) (hclose _) hright
          exact ⟨rfl, (List.cons.inj hend).2⟩
      | _ => cases kind_eq h
  | convert direction origin dest arg ih =>
      cases r' with
      | convert direction' origin' dest' arg' =>
          simp only [chars, List.cons_append, List.append_assoc] at h
          obtain ⟨rfl, htypes⟩ := word_split (fun d : Conversion => d.word.toList)
            (fun a => by cases a <;> decide) (fun a b => by cases a <;> cases b <;> decide) h
          simp only [List.cons.injEq, true_and] at htypes
          obtain ⟨horigin, hdest, harg⟩ := htypes
          obtain rfl := Prim.letter_inj horigin
          obtain rfl := Prim.letter_inj hdest
          obtain ⟨rfl, hend⟩ := ih (hclose _) (hclose _) harg
          exact ⟨rfl, (List.cons.inj hend).2⟩
      | _ => cases kind_eq h

/-- The text of what follows in a list of conditions. -/
def following (rs : List Reading) : List Char :=
  rs.flatMap fun r => " && ".toList ++ r.chars

theorem ends_following (rs : List Reading) : Ends (following rs) := by
  cases rs with
  | nil => exact ends_nil
  | cons r rs => exact ends_cons rfl (by decide) _

theorem following_inj {rs rs' : List Reading} (h : following rs = following rs') : rs = rs' := by
  induction rs generalizing rs' with
  | nil =>
      cases rs' with
      | nil => rfl
      | cons r' rs' => cases h
  | cons r rs ih =>
      cases rs' with
      | nil => cases h
      | cons r' rs' =>
          simp only [following, List.flatMap_cons, List.append_assoc] at h
          obtain ⟨rfl, hrest⟩ := chars_inj (ends_following rs) (ends_following rs')
            (List.append_cancel_left h)
          rw [ih hrest]

/-- The text of a list of conditions. -/
def joined : List Reading → List Char
  | [] => []
  | r :: rs => r.chars ++ following rs

theorem joined_ne_nil (r : Reading) (rs : List Reading) : joined (r :: rs) ≠ [] := by
  obtain ⟨c, cs, hr, -⟩ := chars_cons r
  rw [joined, hr]
  exact List.cons_ne_nil _ _

/-- The text of a list has one reading. -/
theorem joined_inj {rs rs' : List Reading} (h : joined rs = joined rs') : rs = rs' := by
  cases rs with
  | nil =>
      cases rs' with
      | nil => rfl
      | cons r' rs' => exact absurd h.symm (joined_ne_nil r' rs')
  | cons r rs =>
      cases rs' with
      | nil => exact absurd h (joined_ne_nil r rs)
      | cons r' rs' =>
          obtain ⟨rfl, hrest⟩ := chars_inj (ends_following rs) (ends_following rs') h
          rw [following_inj hrest]

end Reading

end PathWitness
