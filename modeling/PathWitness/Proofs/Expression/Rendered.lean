import PathWitness.Model
import PathWitness.Proofs.Expression.Folding
import PathWitness.Proofs.Expression.Precedence
import PathWitness.Proofs.Number.Numeral
import PathWitness.Term.Constants
import PathWitness.Term.Render

/-!
# Reading What Was Rendered

Terms are rendered with every operator application in parentheses, and the text is an
expression again. What is read from it is not always the term itself. A minus in front of a
constant is applied when it is read, so a negation of a constant comes back as a constant;
and a field with the name `length` comes back as the length of an array, which has the same
text. `Term.reread` is the term that is read, and it has the type and the values of the
rendered one.

There are two exceptions, since the numeral of a negative constant is read before its sign.
The numeral of the least `int` is too large for an `int` and makes a `long` of it, and with it
perhaps of the terms around it (`Widens`). The numeral of the least `long` is too large for
any type, so every text in which it occurs is refused. The refusal is followed through the
text like a value: `Fails` is closed under the ways in which expressions are written, as
`Reads` is, with one lemma for each operand that can be the one to fail.

Failures are compared by kind. A division by zero is reported with the term that divides, and
that is the term that was read.

## Main definitions

* `Origin.isNameable`, `Origin.asRead`: Origins in expressions, and what is read for them.
* `Term.reread`: A term as it is read from its text.
* `Expressible`: Terms that can be written as expressions.
* `Fails`: Reading a text ends with a fault.
* `Widens`: The type is kept, or `long` in place of `int`.
* `SameMeaning`: Terms with the same type and the same values.
* `Written`: What the reader makes of the text of a term.

## Theorems

* `Fails.grouped`, `Fails.sign`, `Fails.left`, `Fails.right`: A fault ends what it is part of.
* `reads_number`, `reads_const`, `fails_leastLong`: Constants are read with their signs.
* `Widens.unary`, `Widens.binary`: Operators are defined on wider operands.
* `Expressible.reread_widens`, `Expressible.reread_sameMeaning`: The type and the values of
  what is read.
* `Expressible.written`: What the reader makes of rendered terms.
* `parse_render`: Reading a rendered term.
-/

namespace PathWitness

open Expression

section Origins

/-- The step is an identifier after a dot or a constant index. -/
def Accessor.isNameable : Accessor → Bool
  | field name => isWord name.toList
  | index i => isNumeral i.toList
  | length => true

/-- The origin is made of identifiers and constant indices. -/
def Origin.isNameable (o : Origin) : Bool :=
  isWord o.root.toList && !valueWords.contains o.root && o.steps.all Accessor.isNameable

/-- A step as it is read: a field `length` is the length of an array. -/
def Accessor.asRead : Accessor → Accessor
  | field name => .ofName name
  | a => a

/-- The origin that is read from the text of an origin. -/
def Origin.asRead (o : Origin) : Origin :=
  ⟨o.root, o.steps.map Accessor.asRead⟩

namespace Origin

theorem path_asRead (o : Origin) : o.asRead.path = o.path := by
  have hsteps : o.asRead.steps.map Accessor.text = o.steps.map Accessor.text := by
    rw [asRead, List.map_map]
    refine List.map_congr_left fun a _ => ?_
    cases a with
    | field name => exact text_ofName name
    | index i => rfl
    | length => rfl
  rw [path, path, hsteps]
  rfl

theorem isReadable_asRead {o : Origin} (h : o.isNameable = true) : o.asRead.isReadable = true := by
  simp only [isNameable, isReadable, Bool.and_eq_true] at h ⊢
  refine ⟨h.1, ?_⟩
  rw [asRead, List.all_map, List.all_eq_true]
  intro a ha
  have hname := List.all_eq_true.1 h.2 a ha
  cases a with
  | field name =>
      rw [Function.comp_apply, Accessor.asRead, Accessor.ofName]
      by_cases hlength : name = "length"
      · rw [if_pos hlength]
        rfl
      · rw [if_neg hlength]
        simp only [Accessor.isReadable, Accessor.isNameable] at hname ⊢
        simp [hname, hlength]
  | index i => exact hname
  | length => rfl

end Origin

end Origins

/-- The least `int`. Its numeral without the sign is that of a `long`. -/
def leastInt : Const := .int Int32.minValue

/-- The least `long`. Its numeral without the sign is that of no type. -/
def leastLong : Const := .long Int64.minValue

/-- A constant as it is read from its text. -/
def Const.reread (c : Const) : Const :=
  if c = leastInt then .long (-2147483648) else c

namespace Expression

/-- A unary operator in front of what was read. -/
def signed : UnaryOperator → Term → Term
  | .neg, .const c => negated c
  | op, t => .unary op t

end Expression

/-- A term as it is read from its text. The sign of a constant is applied at once. -/
def Term.reread : Term → Term
  | .const c => .const c.reread
  | .unary op arg => signed op arg.reread
  | .binary op left right => .binary op left.reread right.reread
  | t => t

namespace Expression

variable {ε : Type} {m : Type → Type} [Monad m] {lookup : Origin → m (Except ε (Option Value))}
  {level : Nat} {text text' : String} {e : Term}

/-- Terms that can be written as expressions, where the lookup gives the symbols at their
    origins, as these are read. -/
inductive Expressible (lookup : Origin → m (Except ε (Option Value))) : Term → Prop where
  | const {c : Const} (hc : c.type ∈ [.boolean, .int, .long]) : Expressible lookup (.const c)
  | symbol {s : PrimSymbol} (hname : s.origin.isNameable = true)
    (hfound : lookup s.origin.asRead = pure (.ok (some (.term (.symbol s))))) :
    Expressible lookup (.symbol s)
  | unary (op : UnaryOperator) {arg t : Term} (harg : Expressible lookup arg)
    (hmake : Term.mkUnary (.unary op) (some arg) = .ok t) : Expressible lookup t
  | binary (op : Junctor) {left right t : Term} (hleft : Expressible lookup left)
    (hright : Expressible lookup right)
    (hmake : Term.mkBinary (.binary op) (some left) (some right) = .ok t) : Expressible lookup t

section Faults

variable {fault : ExprFault ε}

/-- Reading the text ends with a fault, whatever waits that yields to the level. -/
def Fails (lookup : Origin → m (Except ε (Option Value))) (level : Nat) (text : String)
    (fault : ExprFault ε) : Prop :=
  ∃ ts, Cuts text ts ∧ ∀ pending values, Yields level pending →
    ts.foldlM (Machine.step lookup) ⟨pending, values, .operand⟩ = throw fault

variable [LawfulMonad m]

theorem Fails.grouped (h : Fails lookup 0 text fault) :
    Fails lookup level ("(" ++ text ++ ")") fault := by
  obtain ⟨ts, hcuts, hts⟩ := h
  refine ⟨_, hcuts.grouped, fun pending values _ => ?_⟩
  have hopen : (⟨pending, values, .operand⟩ : Machine).step lookup (.ofMark "(")
      = pure ⟨.parenthesis :: pending, values, .operand⟩ := rfl
  rw [List.cons_append, List.foldlM_cons, hopen, pure_bind, List.foldlM_append,
    hts (.parenthesis :: pending) values trivial, throw_bind]

theorem Fails.sign {op : UnaryOperator} (h : Fails lookup 9 text fault) :
    Fails lookup level (op.symbol ++ text) fault := by
  obtain ⟨ts, hcuts, hts⟩ := h
  refine ⟨_, hcuts.sign op, fun pending values _ => ?_⟩
  have hwaits : (⟨pending, values, .operand⟩ : Machine).step lookup (.ofMark op.symbol)
      = pure ⟨.unary op :: pending, values, .operand⟩ := by
    cases op <;> rfl
  rw [List.foldlM_cons, hwaits, pure_bind, hts (.unary op :: pending) values (Nat.le_refl 9)]

theorem Fails.left {op : Spelling} {symbol : String} {us : List Token}
    (hop : spelling? symbol = some op) (hlevel : level < op.level)
    (h : Fails lookup (op.level - 1) text fault) (h' : Cuts text' us) :
    Fails lookup level (text ++ " " ++ symbol ++ " " ++ text') fault := by
  obtain ⟨ts, hcuts, hts⟩ := h
  refine ⟨_, hcuts.binary (mark_of_spelling hop).1 h', fun pending values hyields => ?_⟩
  rw [List.foldlM_append, hts _ _ (hyields.mono (by omega)), throw_bind]

theorem Fails.right {op : Spelling} {symbol : String} {a : Term}
    (hop : spelling? symbol = some op) (hlevel : level < op.level)
    (h : Reads lookup (op.level - 1) text a) (h' : Fails lookup op.level text' fault) :
    Fails lookup level (text ++ " " ++ symbol ++ " " ++ text') fault := by
  obtain ⟨hmark, -, hnine⟩ := mark_of_spelling hop
  obtain ⟨ts, hcuts, hphrase⟩ := h.cuts
  obtain ⟨us, hcuts', hus⟩ := h'
  refine ⟨_, hcuts.binary hmark hcuts', fun pending values hyields => ?_⟩
  have hleft := (hphrase.delivers (by omega)).operator hop hlevel hyields values
  rw [List.append_cons, List.foldlM_append, hleft, pure_bind,
    hus (.binary op :: pending) _ (Nat.le_refl op.level)]

theorem Fails.parse_eq (h : Fails lookup 0 text fault) :
    parse lookup text = pure (.error ⟨text, fault⟩) := by
  obtain ⟨ts, hcuts, hts⟩ := h
  have hrun : ((Token.scan text).foldlM (Machine.step lookup) {} >>= fun s => s.finish lookup)
      = (throw fault : ExceptT (ExprFault ε) m _) := by
    rw [hcuts.scan_eq, hts [] [] trivial, throw_bind]
  unfold parse
  rw [hrun]
  exact pure_bind _ _

end Faults

section Numerals

open Number

theorem isNumeral_toDigits (n : Nat) : isNumeral (Nat.toDigits 10 n) = true := by
  by_cases hn : n = 0
  · rw [hn]
    decide
  · have hall : ∀ c ∈ Nat.toDigits 10 n, isDigit c = true := fun c => isDigit_of_mem_toDigits
    have hhead := head?_toDigits (Nat.pos_of_ne_zero hn)
    have hradix : numeralRadix (Nat.toDigits 10 n) = (.decimal, []) := by
      unfold numeralRadix
      split
      · simp_all
      · simp_all
      · rfl
    have hplain : '_' ∉ Nat.toDigits 10 n := fun hmem => absurd (hall _ hmem) (by decide)
    have hrun : digitRun (Radix.decimal == .hexadecimal) (Nat.toDigits 10 n) = Nat.toDigits 10 n :=
      List.takeWhile_eq_self_iff.2 fun c hc => by simp [hall c hc]
    have hdigits : (Nat.toDigits 10 n).all (· == '_') = false := by
      obtain ⟨c, hc⟩ := List.exists_mem_of_ne_nil _ (Nat.toDigits_ne_nil (n := n) (b := 10))
      refine List.all_eq_false.2 ⟨c, hc, fun hmark => hplain ?_⟩
      rwa [← beq_iff_eq.1 hmark]
    simp [isNumeral, hradix, hrun, hdigits, firstInvalidDigit, hplain]

/-- The literal of a number. -/
def literalOf (n : Nat) (h : n < pow2 63) (long : Bool) : IntegerLiteral where
  digits := toString n
  isNumeral := by
    rw [Nat.toString_eq_ofList_toDigits, String.toList_ofList]
    exact isNumeral_toDigits n
  value := Int64.ofNat n
  denotes := by
    rw [Nat.toString_eq_ofList_toDigits, String.toList_ofList]
    exact parseInteger_toDigits h
  long := long

/-- An integer as it is written and read: an `int`, unless the letter of a long follows or its
    numeral is too large for one. -/
def numberRead (long : Bool) (v : Int64) : Const :=
  if long || v < -2147483647 || v > 2147483647 then .long v else .int v.toInt32

/-- The text of an integer, with the letter of a long or without it. -/
def numberText (long : Bool) (v : Int64) : String :=
  Const.integerText v ++ if long then "L" else ""

theorem text_literalOf {n : Nat} (h : n < pow2 63) (long : Bool) :
    (literalOf n h long).text = toString n ++ if long then "L" else "" := by
  cases long with
  | true => rfl
  | false => exact String.append_empty.symm

theorem numberRead_of_nonneg {v : Int64} (long : Bool) (h : 0 ≤ v) :
    numberRead long v = if long || v > 2147483647 then .long v else .int v.toInt32 := by
  have hnot : ¬ v < -2147483647 := by
    rw [Int64.lt_iff_toInt_lt, show (-2147483647 : Int64).toInt = -2147483647 from rfl]
    rw [Int64.le_iff_toInt_le, Int64.toInt_zero] at h
    omega
  simp only [numberRead, hnot, decide_false, Bool.or_false]

theorem negated_numberRead {v : Int64} (long : Bool) (h : 0 ≤ v) :
    negated (numberRead long v) = .const (numberRead long (-v)) := by
  have hneg : (-v).toInt = -v.toInt := by
    have hrange := v.toInt_lt
    rw [Int64.le_iff_toInt_le, Int64.toInt_zero] at h
    rw [Int64.toInt_neg, Int.bmod_eq_of_le_mul_two (by omega) (by omega)]
  -- The negative number is in range exactly if its magnitude is.
  have hfits : (decide (-v < -2147483647) || decide (-v > 2147483647))
      = (decide (v < -2147483647) || decide (v > 2147483647)) := by
    rw [Int64.le_iff_toInt_le, Int64.toInt_zero] at h
    simp only [gt_iff_lt, Int64.lt_iff_toInt_lt, hneg, ← Bool.decide_or,
      show (-2147483647 : Int64).toInt = -2147483647 from rfl,
      show (2147483647 : Int64).toInt = 2147483647 from rfl, decide_eq_decide]
    omega
  unfold numberRead
  rw [Bool.or_assoc, Bool.or_assoc, hfits]
  split
  · rfl
  · have hnarrow : (-v.toInt32.toInt64).toInt32 = (-v).toInt32 := by
      rw [Int64.toInt32_neg, Int64.toInt32_neg, Int32.toInt32_toInt64]
    exact congrArg (Term.const ∘ Const.int) hnarrow

theorem ofNat_nonneg {n : Nat} (h : n < pow2 63) : (0 : Int64) ≤ Int64.ofNat n :=
  nonneg_of_isNumeral (literalOf n h false).isNumeral (literalOf n h false).denotes

theorem reads_natural {n : Nat} (h : n < pow2 63) (long : Bool) :
    Reads lookup level (toString n ++ if long then "L" else "")
      (.const (numberRead long (Int64.ofNat n))) := by
  rw [numberRead_of_nonneg long (ofNat_nonneg h), ← text_literalOf h]
  exact .integer (literalOf n h long)

/-- The text of an integer is read with its sign. -/
theorem reads_number {v : Int64} (hv : v ≠ Int64.minValue) (long : Bool) :
    Reads lookup level (numberText long v) (.const (numberRead long v)) := by
  have hpow : pow2 63 = 9223372036854775808 := rfl
  have hsame := Int64.ofInt_toInt v
  unfold numberText Const.integerText
  cases hn : v.toInt with
  | ofNat n =>
      have hrange := v.toInt_lt
      rw [hn, Int.ofNat_eq_natCast] at hrange
      rw [hn] at hsame
      have hlt : n < pow2 63 := by omega
      rw [← show Int64.ofNat n = v from hsame]
      exact reads_natural hlt long
  | negSucc n =>
      have hleast := v.le_toInt
      have hne : v.toInt ≠ Int64.minValue.toInt := fun h => hv (Int64.toInt_inj.1 h)
      rw [hn, show Int64.minValue.toInt = -9223372036854775808 from rfl] at hne
      rw [hn] at hleast hsame
      have hlt : n + 1 < pow2 63 := by omega
      have hvalue : -Int64.ofNat (n + 1) = v := by
        rw [← hsame, ← Int64.ofInt_eq_ofNat, ← Int64.ofInt_neg]
        rfl
      have hread : Reads lookup level (UnaryOperator.neg.symbol ++
          (toString (n + 1) ++ if long then "L" else "")) (.const (numberRead long v)) := by
        refine (reads_natural hlt long).sign ?_
        rw [applyUnary_neg, negated_numberRead long (ofNat_nonneg hlt), hvalue]
      rw [← String.append_assoc] at hread
      exact hread

theorem numberRead_toInt64 (v : Int32) : numberRead false v.toInt64 = (Const.int v).reread := by
  by_cases hv : v = Int32.minValue
  · rw [hv]
    rfl
  · have hlow := v.le_toInt
    have hhigh := v.toInt_lt
    have hne : v.toInt ≠ Int32.minValue.toInt := fun h => hv (Int32.toInt_inj.1 h)
    rw [show Int32.minValue.toInt = -2147483648 from rfl] at hne
    have hfits : (false || decide (v.toInt64 < -2147483647) || decide (v.toInt64 > 2147483647))
        = false := by
      simp only [gt_iff_lt, Int64.lt_iff_toInt_lt, Int32.toInt_toInt64, Bool.false_or,
        show (-2147483647 : Int64).toInt = -2147483647 from rfl,
        show (2147483647 : Int64).toInt = 2147483647 from rfl, Bool.or_eq_false_iff,
        decide_eq_false_iff_not]
      omega
    have hother : Const.int v ≠ leastInt := fun h => hv (Const.int.inj h)
    rw [numberRead, hfits, if_neg Bool.false_ne_true, Int32.toInt32_toInt64, Const.reread,
      if_neg hother]

theorem reads_const {c : Const} (hc : c.type ∈ [.boolean, .int, .long]) (hleast : c ≠ leastLong) :
    Reads lookup level c.text (.const c.reread) := by
  cases c with
  | boolean b =>
      have hread : Reads lookup level (if b then "true" else "false") (.const (.boolean b)) :=
        .truth b
      cases b <;> exact hread
  | int v =>
      have hne : v.toInt64 ≠ Int64.minValue := by
        intro h
        have hwide := Int32.toInt_toInt64 v
        have hbound := v.le_toInt
        rw [h, show Int64.minValue.toInt = -9223372036854775808 from rfl] at hwide
        omega
      have hread : Reads lookup level (numberText false v.toInt64) _ := reads_number hne false
      rw [numberRead_toInt64, numberText, if_neg Bool.false_ne_true, String.append_empty] at hread
      exact hread
  | long v =>
      have hne : v ≠ Int64.minValue := fun h => hleast (congrArg Const.long h)
      exact reads_number hne true
  | _ => simp [Const.type] at hc

/-- The fault of the least `long`, whose numeral is read before its sign. -/
def tooLarge : ExprFault ε :=
  .integer "9223372036854775808" .outOfRange

theorem fails_leastLong [LawfulMonad m] : Fails lookup level leastLong.text tooLarge := by
  have htext : leastLong.text = UnaryOperator.neg.symbol ++ ("9223372036854775808" ++ "L") := by
    decide +kernel
  have hdigits : isNumeral "9223372036854775808".toList = true := by decide
  have hmarked : Fails lookup 9 ("9223372036854775808" ++ "L") tooLarge := by
    refine ⟨_, ⟨startsOperand_head _ (by decide), .long hdigits⟩, fun pending values _ => ?_⟩
    have hconst : (integerConst "9223372036854775808" true : Except (ExprFault ε) Const)
        = .error tooLarge := rfl
    have hnumeral : (⟨pending, values, .operand⟩ : Machine).step lookup
        (.ofNumeral "9223372036854775808")
          = pure ⟨pending, values, .integer "9223372036854775808"⟩ := rfl
    have hletter : (⟨pending, values, .integer "9223372036854775808"⟩ : Machine).step lookup
        (.ofWord "L") = throw tooLarge := by
      simp only [Machine.step, Token.ofWord, hconst, if_true, beq_self_eq_true]
      exact throw_bind _ _
    rw [List.foldlM_cons, hnumeral, pure_bind, List.foldlM_cons, hletter, throw_bind]
  rw [htext]
  exact hmarked.sign

end Numerals

section Types

/-- The type is kept, or it is `long` in place of `int`. -/
def Widens (p q : Prim) : Prop :=
  q = p ∨ (p = .int ∧ q = .long)

variable {p q p' q' : Prim}

theorem Widens.boolean_iff (h : Widens p q) : q = .boolean ↔ p = .boolean := by
  rcases h with rfl | ⟨rfl, rfl⟩
  · rfl
  · decide

theorem Widens.isInteger_eq (h : Widens p q) : q.isInteger = p.isInteger := by
  rcases h with rfl | ⟨rfl, rfl⟩ <;> rfl

theorem Widens.promote (h : Widens p q) (h' : Widens p' q') :
    Widens (.promote p p') (.promote q q') := by
  rcases h with rfl | ⟨rfl, rfl⟩
  · rcases h' with rfl | ⟨rfl, rfl⟩
    · exact .inl rfl
    · cases q <;> simp [Widens, Prim.promote]
  · rcases h' with rfl | ⟨rfl, rfl⟩
    · cases q' <;> simp [Widens, Prim.promote]
    · exact .inr ⟨rfl, rfl⟩

theorem Widens.unary (op : UnaryOperator) (h : Widens p q) :
    (op.resultType? q).isSome = (op.resultType? p).isSome ∧
      Widens (op.resultType p) (op.resultType q) := by
  cases op with
  | neg =>
      refine ⟨?_, h.promote h⟩
      simp only [UnaryOperator.resultType?, h.boolean_iff]
      split <;> rfl
  | not =>
      refine ⟨?_, .inl rfl⟩
      simp only [UnaryOperator.resultType?, h.boolean_iff]

theorem Widens.binary (op : BinaryOperator) (h : Widens p q) (h' : Widens p' q') :
    (op.resultType? q q').isSome = (op.resultType? p p').isSome ∧
      Widens (op.resultType p p') (op.resultType q q') := by
  cases op with
  | arithmetic o =>
      refine ⟨?_, h.promote h'⟩
      simp only [BinaryOperator.resultType?, h.boolean_iff, h'.boolean_iff]
      split <;> rfl
  | connective o =>
      simp only [BinaryOperator.resultType?, BinaryOperator.resultType, h.boolean_iff,
        h'.boolean_iff, h.isInteger_eq, h'.isInteger_eq]
      split
      · exact ⟨rfl, .inl rfl⟩
      · refine ⟨?_, h.promote h'⟩
        split <;> rfl
  | shift o =>
      refine ⟨?_, h.promote h⟩
      simp only [BinaryOperator.resultType?, h.isInteger_eq, h'.isInteger_eq]
      split <;> rfl
  | comparison o =>
      refine ⟨?_, .inl rfl⟩
      simp only [BinaryOperator.resultType?, h.boolean_iff, h'.boolean_iff]

end Types

section Rereading

/-- A constant, if the term is one, has a type with literals. -/
def HasLiterals (t : Term) : Prop :=
  ∀ c, t = .const c → c.type ∈ [.boolean, .int, .long]

variable {op : UnaryOperator} {t : Term}

theorem HasLiterals.of_const {c : Const} (hc : c.type ∈ [.boolean, .int, .long]) :
    HasLiterals (.const c) :=
  fun _ h => Term.const.inj h ▸ hc

theorem HasLiterals.of_no_const (h : t.const? = none) : HasLiterals t := by
  rintro c rfl
  cases h

/-- The sign of a constant is applied at once, and every other operator stays. -/
theorem signed_cases (op : UnaryOperator) (t : Term) :
    (∃ c, op = .neg ∧ t = .const c) ∨
      signed op t = .unary op t ∧ (op != .neg || t.const?.isNone) = true := by
  cases op with
  | not => exact .inr ⟨rfl, rfl⟩
  | neg =>
      cases t with
      | const c => exact .inl ⟨c, rfl, rfl⟩
      | _ => exact .inr ⟨rfl, rfl⟩

theorem applyUnary_signed (h : (op.resultType? t.type).isSome = true) :
    (applyUnary op (some (.term t)) : Except (ExprFault ε) _)
      = .ok (some (.term (signed op t))) := by
  rcases signed_cases op t with ⟨c, rfl, rfl⟩ | ⟨hsigned, hneg⟩
  · exact applyUnary_neg c
  · rw [hsigned]
    obtain ⟨p, hp⟩ := Option.isSome_iff_exists.1 h
    refine applyUnary_of_isOk hneg ?_
    simp only [Term.mkUnary, hp]
    rfl

/-- The constant that is folded is what the operator would have computed. -/
theorem signed_spec (hliteral : HasLiterals t) (h : (op.resultType? t.type).isSome = true) :
    HasLiterals (signed op t) ∧ (signed op t).type = op.resultType t.type ∧
      ∀ {ε : Type} (values : PrimSymbol → Except ε Const),
        (signed op t).eval values = (Term.unary op t).eval values := by
  rcases signed_cases op t with ⟨c, rfl, rfl⟩ | ⟨hsigned, -⟩
  · have hc := hliteral c rfl
    cases c with
    | int v | long v =>
        exact ⟨.of_const hc, rfl, fun _ => rfl⟩
    | boolean b => cases h
    | _ => simp [Const.type] at hc
  · rw [hsigned]
    exact ⟨.of_no_const rfl, rfl, fun _ => rfl⟩

theorem reread_const {c : Const} (h : c ≠ leastInt) : (Term.const c).reread = .const c := by
  rw [Term.reread, Const.reread, if_neg h]

theorem Expressible.reread_widens (h : Expressible lookup e) :
    Widens e.type e.reread.type ∧ HasLiterals e.reread := by
  induction h with
  | @const c hc =>
      by_cases hleast : c = leastInt
      · have hlong : (Term.const c).reread = .const (.long (-2147483648)) := by
          rw [Term.reread, Const.reread, if_pos hleast]
        rw [hlong, hleast]
        exact ⟨.inr ⟨rfl, rfl⟩, .of_const (by decide)⟩
      · rw [reread_const hleast]
        exact ⟨.inl rfl, .of_const hc⟩
  | symbol => exact ⟨.inl rfl, .of_no_const rfl⟩
  | unary _ harg hmake ih =>
      obtain ⟨op, -, rfl, htype⟩ := Term.mkUnary_cases hmake
      obtain ⟨hsome, hwidens⟩ := ih.1.unary op
      obtain ⟨hliteral, hsigned, -⟩ := signed_spec ih.2 (hsome.trans htype)
      refine ⟨?_, hliteral⟩
      rw [Term.reread, hsigned]
      exact hwidens
  | binary _ hleft hright hmake ihleft ihright =>
      obtain ⟨op, -, rfl, htype⟩ := Term.mkBinary_cases hmake
      exact ⟨(ihleft.1.binary op ihright.1).2, .of_no_const rfl⟩

/-- The kind of the failure of an operation, wherever it is carried out. -/
def operationKind : OperationError → ErrorKind
  | .divisionByZero => .divisionByZero
  | .trap => .error
  | .mismatch _ => .typeMismatch

section Evaluation

variable {δ : Type} [Fault δ] (values : PrimSymbol → Except δ Const)

theorem mapError_ofOperation (t : Term) (r : Except OperationError Const) :
    (r.mapError (EvalError.ofOperation (ε := δ) t)).mapError Fault.kind
      = r.mapError operationKind := by
  cases r with
  | ok c => rfl
  | error o => cases o <;> rfl

theorem eval_unary_kind (op : UnaryOperator) (t : Term) :
    ((Term.unary op t).eval values).mapError Fault.kind
      = (t.eval values).mapError Fault.kind >>= fun c =>
        (op.apply (op.resultType t.type) c).mapError operationKind := by
  simp only [Term.eval, mapError_bind, mapError_ofOperation]

theorem eval_binary_kind (op : BinaryOperator) (t u : Term) :
    ((Term.binary op t u).eval values).mapError Fault.kind
      = (t.eval values).mapError Fault.kind >>= fun c =>
        (u.eval values).mapError Fault.kind >>= fun d =>
          (op.apply (op.resultType t.type u.type) c d).mapError operationKind := by
  simp only [Term.eval, mapError_bind, mapError_ofOperation]

end Evaluation

/-- The terms have the same type and the same values, and where one has no value the other
    has none for the same kind of reason. -/
structure SameMeaning (t u : Term) : Prop where
  /-- The types agree. -/
  type_eq : t.type = u.type
  /-- The values agree. -/
  eval_eq : ∀ {δ : Type} [Fault δ] (values : PrimSymbol → Except δ Const),
    (t.eval values).mapError Fault.kind = (u.eval values).mapError Fault.kind

theorem Expressible.reread_sameMeaning (h : Expressible lookup e)
    (hleast : leastInt ∉ e.constants) : SameMeaning e.reread e := by
  induction h with
  | @const c hc =>
      have hc : c ≠ leastInt := fun h => hleast (by simp [Term.constants, h])
      rw [reread_const hc]
      exact ⟨rfl, fun _ => rfl⟩
  | symbol => exact ⟨rfl, fun _ => rfl⟩
  | unary _ harg hmake ih =>
      obtain ⟨op, -, rfl, htype⟩ := Term.mkUnary_cases hmake
      rw [Term.constants] at hleast
      obtain ⟨hsame, heval⟩ := ih hleast
      rw [← hsame] at htype
      obtain ⟨-, hsigned, hvalue⟩ := signed_spec harg.reread_widens.2 htype
      rw [Term.reread]
      refine ⟨by rw [hsigned, hsame, Term.type], fun values => ?_⟩
      rw [hvalue, eval_unary_kind, eval_unary_kind, heval, hsame]
  | binary _ hleft hright hmake ihleft ihright =>
      obtain ⟨op, -, rfl, -⟩ := Term.mkBinary_cases hmake
      rw [Term.constants, List.mem_append, not_or] at hleast
      obtain ⟨hsame, heval⟩ := ihleft hleast.1
      obtain ⟨hsame', heval'⟩ := ihright hleast.2
      rw [Term.reread]
      refine ⟨by rw [Term.type, Term.type, hsame, hsame'], fun values => ?_⟩
      rw [eval_binary_kind, eval_binary_kind, heval, heval', hsame, hsame']

end Rereading

section Rendering

/-- What the reader makes of a text that stands for a term: it reads the term, unless the
    least `long` is in it. -/
structure Written (lookup : Origin → m (Except ε (Option Value))) (e : Term) (text : String) :
    Prop where
  /-- The text is read. -/
  reads : leastLong ∉ e.constants → ∀ level, Reads lookup level text e.reread
  /-- The text is refused. -/
  fails : leastLong ∈ e.constants → ∀ level, Fails lookup level text tooLarge

theorem Written.cuts (h : Written lookup e text) : ∃ ts, Cuts text ts := by
  by_cases hleast : leastLong ∈ e.constants
  · obtain ⟨ts, hcuts, -⟩ := h.fails hleast 0
    exact ⟨ts, hcuts⟩
  · obtain ⟨ts, hcuts, -⟩ := (h.reads hleast 0).cuts
    exact ⟨ts, hcuts⟩

theorem Written.symbol {s : PrimSymbol} (hname : s.origin.isNameable = true)
    (hfound : lookup s.origin.asRead = pure (.ok (some (.term (.symbol s))))) :
    Written lookup (.symbol s) s.origin.path := by
  refine ⟨fun _ level => ?_, fun hleast => by cases hleast⟩
  rw [← s.origin.path_asRead]
  exact .origin (Origin.isReadable_asRead hname) hfound

variable [LawfulMonad m]

theorem Written.const {c : Const} (hc : c.type ∈ [.boolean, .int, .long]) :
    Written lookup (.const c) c.text := by
  refine ⟨fun hleast level => reads_const hc ?_, fun hleast level => ?_⟩
  · rintro rfl
    exact hleast List.mem_cons_self
  · rw [← List.mem_singleton.1 hleast]
    exact fails_leastLong

theorem Written.unary {op : UnaryOperator} {arg : Term} (h : Written lookup arg text)
    (htype : (op.resultType? arg.reread.type).isSome = true) :
    Written lookup (.unary op arg) ("(" ++ op.symbol ++ text ++ ")") := by
  have hassoc : "(" ++ op.symbol ++ text ++ ")" = "(" ++ (op.symbol ++ text) ++ ")" := by
    rw [← String.append_assoc]
  rw [hassoc]
  exact ⟨fun hleast _ => ((h.reads hleast 9).sign (applyUnary_signed htype)).grouped,
    fun hleast _ => (h.fails hleast 9).sign.grouped⟩

theorem Written.binary {op : Junctor} {left right : Term} (hleft : Written lookup left text)
    (hright : Written lookup right text')
    (htype : (op.val.resultType? left.reread.type right.reread.type).isSome = true) :
    Written lookup (.binary op left right)
      ("(" ++ text ++ " " ++ Term.binarySymbol op left right ++ " " ++ text' ++ ")") := by
  obtain ⟨sp, hsp, hop, hrow⟩ : ∃ sp, spelling? (Term.binarySymbol op left right) = some sp ∧
      sp.op = op ∧ sp.level = _ := spelling?_symbolFor op _
  have hpos : 0 < sp.level := hrow ▸ Nat.succ_pos _
  have hassoc : "(" ++ text ++ " " ++ Term.binarySymbol op left right ++ " " ++ text' ++ ")"
      = "(" ++ (text ++ " " ++ Term.binarySymbol op left right ++ " " ++ text') ++ ")" := by
    simp only [String.append_assoc]
  rw [hassoc]
  refine ⟨fun hleast level => ?_, fun hleast level => ?_⟩
  · rw [Term.constants, List.mem_append, not_or] at hleast
    have hok : (Term.mkBinary (.binary sp.op) (some left.reread) (some right.reread)).isOk
        = true := by
      obtain ⟨p, hp⟩ := Option.isSome_iff_exists.1 htype
      simp only [Term.mkBinary, hop, hp]
      rfl
    have happly := applyBinary_of_isOk (ε := ε) hok
    rw [hop] at happly
    exact (Reads.binary hsp hpos (hleft.reads hleast.1 _) (hright.reads hleast.2 _) happly).grouped
  · -- The left operand is read first, so what is wrong with the right one may not be reached.
    by_cases hfirst : leastLong ∈ left.constants
    · obtain ⟨us, hcuts⟩ := hright.cuts
      exact (Fails.left hsp hpos (hleft.fails hfirst _) hcuts).grouped
    · have hsecond := (List.mem_append.1 hleast).resolve_left hfirst
      exact (Fails.right hsp hpos (hleft.reads hfirst _) (hright.fails hsecond _)).grouped

theorem Expressible.written {δ : Type} (h : Expressible lookup e) :
    ∃ text, (e.render fun s => .ok s.origin.path : Except δ String) = .ok text ∧
      Written lookup e text := by
  induction h with
  | @const c hc => exact ⟨c.text, by rw [Term.render], .const hc⟩
  | @symbol s hname hfound => exact ⟨s.origin.path, by rw [Term.render], .symbol hname hfound⟩
  | unary _ harg hmake ih =>
      obtain ⟨op, -, rfl, htype⟩ := Term.mkUnary_cases hmake
      obtain ⟨text, hrender, hwritten⟩ := ih
      rw [← (harg.reread_widens.1.unary op).1] at htype
      refine ⟨_, ?_, hwritten.unary htype⟩
      rw [Term.render, hrender]
      rfl
  | @binary op left right t hleft hright hmake ihleft ihright =>
      obtain ⟨op', hop, rfl, htype⟩ := Term.mkBinary_cases hmake
      obtain rfl : op.val = op' := Operator.binary.inj hop
      obtain ⟨text, hrender, hwritten⟩ := ihleft
      obtain ⟨text', hrender', hwritten'⟩ := ihright
      rw [← (hleft.reread_widens.1.binary op.val hright.reread_widens.1).1] at htype
      refine ⟨_, ?_, hwritten.binary hwritten' htype⟩
      rw [Term.render, hrender, hrender']
      rfl

/-- A rendered expression is read back, with its type and its values. The numeral of a negative
    constant is read before its sign, which leaves two exceptions: the least `int` is read as
    a `long`, and an expression with the least `long` in it is refused. -/
theorem parse_render {δ : Type} (h : Expressible lookup e) :
    ∃ text, (e.render fun s => .ok s.origin.path : Except δ String) = .ok text ∧
      (leastLong ∈ e.constants → parse lookup text = pure (.error ⟨text, tooLarge⟩)) ∧
      (leastLong ∉ e.constants →
        parse lookup text = pure (.ok (some (.term e.reread))) ∧
        Widens e.type e.reread.type ∧ (leastInt ∉ e.constants → SameMeaning e.reread e)) := by
  obtain ⟨text, hrender, hwritten⟩ := h.written (δ := δ)
  refine ⟨text, hrender, fun hleast => (hwritten.fails hleast 0).parse_eq, fun hleast => ?_⟩
  exact ⟨(hwritten.reads hleast 0).parse_eq, h.reread_widens.1, h.reread_sameMeaning⟩

/-- The width of a box, and the first of its cells. -/
def boxSymbols : List PrimSymbol :=
  [⟨0, .short, ⟨"box", [.field "width"]⟩⟩, ⟨1, .long, ⟨"box", [.field "cells", .index "0"]⟩⟩]

/-- Finds the symbols by the texts of their origins. -/
def boxLookup (o : Origin) : Id (Except Unit (Option Value)) :=
  pure (.ok ((boxSymbols.find? (·.origin.text == o.text)).map fun s => .term (.symbol s)))

/-- Whether the width, with its sign changed, is not below the first cell. -/
def boxTerm : Term :=
  .unary .not (.binary (.comparison .lt)
    (.binary (.arithmetic .mul) (.symbol ⟨0, .short, ⟨"box", [.field "width"]⟩⟩)
      (.unary .neg (.const (.int 1))))
    (.binary (.arithmetic .sub) (.symbol ⟨1, .long, ⟨"box", [.field "cells", .index "0"]⟩⟩)
      (.const (.long (-9)))))

theorem parse_render_box :
    (boxTerm.render fun s => .ok s.origin.path : Except Unit String)
        = .ok "(!((box.width * (-1)) < (box.cells[0] - -9L)))" ∧
      parse boxLookup "(!((box.width * (-1)) < (box.cells[0] - -9L)))"
        = pure (.ok (some (.term boxTerm.reread))) ∧
      SameMeaning boxTerm.reread boxTerm := by
  have hwidth : Expressible boxLookup (.symbol ⟨0, .short, ⟨"box", [.field "width"]⟩⟩) :=
    .symbol (by decide +kernel) rfl
  have hcell : Expressible boxLookup
      (.symbol ⟨1, .long, ⟨"box", [.field "cells", .index "0"]⟩⟩) :=
    .symbol (by decide +kernel) rfl
  have hone : Expressible boxLookup (.const (.int 1)) := .const (by decide)
  have hnine : Expressible boxLookup (.const (.long (-9))) := .const (by decide)
  have hterm : Expressible boxLookup boxTerm :=
    .unary .not (.binary ⟨.comparison .lt, rfl⟩
      (.binary ⟨.arithmetic .mul, rfl⟩ hwidth (.unary .neg hone rfl) rfl)
      (.binary ⟨.arithmetic .sub, rfl⟩ hcell hnine rfl) rfl) rfl
  have hrender : (boxTerm.render fun s => .ok s.origin.path : Except Unit String)
      = .ok "(!((box.width * (-1)) < (box.cells[0] - -9L)))" := rfl
  obtain ⟨text, htext, -, hread⟩ := parse_render (δ := Unit) hterm
  obtain rfl := Except.ok.inj (hrender.symm.trans htext)
  obtain ⟨hparse, -, hsame⟩ := hread (by decide)
  exact ⟨hrender, hparse, hsame (by decide)⟩

/-- The least constants are rendered and not read back. -/
theorem render_least :
    ((Term.const leastInt).render fun s => .ok s.origin.path : Except Unit String)
        = .ok "-2147483648" ∧
      StateT.run (parse noOrigins "-2147483648") ()
        = (.ok (some (.term (.const (.long (-2147483648))))), ()) ∧
      ((Term.const leastLong).render fun s => .ok s.origin.path : Except Unit String)
        = .ok "-9223372036854775808L" ∧
      StateT.run (parse noOrigins "-9223372036854775808L") ()
        = (.error ⟨"-9223372036854775808L", tooLarge⟩, ()) :=
  ⟨rfl, rfl, rfl, rfl⟩

end Rendering

end Expression

end PathWitness
