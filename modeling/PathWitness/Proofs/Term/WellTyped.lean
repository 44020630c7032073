import Mathlib.Algebra.Ring.Int.Defs
import Mathlib.Algebra.Ring.Nat
import PathWitness.Proofs.Evaluation
import PathWitness.Term.Typing

/-!
# Built Terms are Evaluated at their Types

Types are looked at twice. The builders of terms look at the types of the
operands and refuse an operator that is not defined on them. Evaluation looks at
the type an application has and computes on truth values, on floating-point
numbers or on integers, and it fails where an operator is not defined. The two
are case analyses of their own, over operators and types, and nothing in the
definitions makes them agree.

They do agree on every term that was built. A value then has the type of its
term, so the only failures left are those that depend on values: a symbol
without one, a zero divisor, and a named function. The division itself is never
carried out with a zero divisor. This needs the types as well: the divisor is
checked in 64 bits and cut to 32 bits afterwards, and a divisor that is not zero
stays so only because its type has no more than 32 bits.

## Main definitions

* `Prim.range?`: The least and the greatest value of an integral type.
* `Const.value`: The number that an integral constant stands for.
* `Term.Built`: A term that the builders make.
* `Term.WellTyped`: Every operator is defined on the types of its operands.

## Theorems

* `Const.range_of_type`: A constant is in the range of its type.
* `UnaryOperator.apply_typed`, `BinaryOperator.apply_typed`: What an operator
  gives on operands that fit.
* `Term.Built.wellTyped`: The builders make well-typed terms.
* `Term.WellTyped.eval_cases`: How the evaluation of a well-typed term ends.
* `Term.WellTyped.eval_valued`: How it ends where the symbols have values.
* `Term.eval_typed`: Values have the types of their terms, and types never make
  an evaluation fail.
-/

namespace PathWitness

/-- The least and the greatest value of an integral type. -/
def Prim.range? : Prim → Option (Int × Int)
  | boolean => some (0, 1)
  | byte => some (-2 ^ 7, 2 ^ 7 - 1)
  | char => some (0, 2 ^ 16 - 1)
  | short => some (-2 ^ 15, 2 ^ 15 - 1)
  | int => some (-2 ^ 31, 2 ^ 31 - 1)
  | long => some (-2 ^ 63, 2 ^ 63 - 1)
  | float | double => none

namespace Prim

/-- The integral types are those with a range. -/
theorem isSome_range? (p : Prim) : p.range?.isSome = p.isIntegral := by
  cases p <;> rfl

theorem exists_range {p : Prim} (hp : p.isIntegral = true) :
    ∃ least greatest, p.range? = some (least, greatest) := by
  obtain ⟨⟨least, greatest⟩, hrange⟩ := Option.isSome_iff_exists.1 ((isSome_range? p).trans hp)
  exact ⟨least, greatest, hrange⟩

/-- An integral type other than `long` has no more than 32 bits. -/
theorem narrow_range {p : Prim} {least greatest : Int} (h : p.range? = some (least, greatest))
    (hlong : p ≠ long) : -2 ^ 31 ≤ least ∧ greatest < 2 ^ 31 := by
  cases p <;> simp_all [range?] <;> omega

theorem isInteger_iff {p : Prim} : p.isInteger = true ↔ p.isIntegral = true ∧ p ≠ boolean := by
  cases p <;> decide

theorem promote_ne_boolean (a b : Prim) : promote a b ≠ boolean := by
  cases a <;> cases b <;> decide

/-- A promoted type is integral exactly when both types are. -/
theorem isIntegral_promote (a b : Prim) :
    (promote a b).isIntegral = (a.isIntegral && b.isIntegral) := by
  cases a <;> cases b <;> rfl

/-- Only types of no more than 32 bits are promoted to `int`. -/
theorem of_promote_eq_int {a b : Prim} (h : promote a b = int) :
    (a.isIntegral = true ∧ a ≠ long) ∧ b.isIntegral = true ∧ b ≠ long := by
  cases a <;> cases b <;> simp_all [promote, isIntegral, isFloating]

end Prim

namespace Const

/-- The number that an integral constant stands for. -/
def value (c : Const) : Int :=
  c.toInt64.toInt

/-- A constant is in the range of its type. -/
theorem range_of_type {c : Const} {least greatest : Int}
    (h : c.type.range? = some (least, greatest)) : least ≤ c.value ∧ c.value ≤ greatest := by
  cases c with
  | boolean b =>
      obtain ⟨rfl, rfl⟩ := Prod.mk.inj (Option.some.inj h)
      cases b <;> decide
  | byte v =>
      obtain ⟨rfl, rfl⟩ := Prod.mk.inj (Option.some.inj h)
      have hlow := v.le_toInt
      have hhigh := v.toInt_lt
      simp only [value, toInt64, Int8.toInt_toInt64]
      omega
  | char v =>
      obtain ⟨rfl, rfl⟩ := Prod.mk.inj (Option.some.inj h)
      have hhigh := v.toNat_lt
      have hvalue : (Int64.ofNat v.toNat).toInt = v.toNat := Int64.toInt_ofNat_of_lt (by omega)
      simp only [value, toInt64, hvalue]
      omega
  | short v =>
      obtain ⟨rfl, rfl⟩ := Prod.mk.inj (Option.some.inj h)
      have hlow := v.le_toInt
      have hhigh := v.toInt_lt
      simp only [value, toInt64, Int16.toInt_toInt64]
      omega
  | int v =>
      obtain ⟨rfl, rfl⟩ := Prod.mk.inj (Option.some.inj h)
      have hlow := v.le_toInt
      have hhigh := v.toInt_lt
      simp only [value, toInt64, Int32.toInt_toInt64]
      omega
  | long v =>
      obtain ⟨rfl, rfl⟩ := Prod.mk.inj (Option.some.inj h)
      have hlow := v.le_toInt
      have hhigh := v.toInt_lt
      simp only [value, toInt64]
      omega
  | float v => exact absurd h (by simp only [type, Prim.range?, reduceCtorEq, not_false_eq_true])
  | double v => exact absurd h (by simp only [type, Prim.range?, reduceCtorEq, not_false_eq_true])

/-- Cutting a constant of no more than 32 bits to 32 bits leaves it as it is. -/
theorem toInt32_toInt64 {c : Const} (hintegral : c.type.isIntegral = true)
    (hlong : c.type ≠ .long) : c.toInt64.toInt32.toInt64 = c.toInt64 := by
  obtain ⟨least, greatest, hrange⟩ := Prim.exists_range hintegral
  have hvalue := range_of_type hrange
  have hnarrow := Prim.narrow_range hrange hlong
  unfold value at hvalue
  apply Int64.toInt_inj.1
  rw [Int32.toInt_toInt64, Int64.toInt_toInt32]
  exact Int.bmod_eq_of_le (by omega) (by omega)

end Const

/-- Division at a type cuts nothing off its operands: it is carried out in 64
    bits, or the operands have no more than 32 bits. -/
def Uncut (t : Prim) (x y : Int64) : Prop :=
  t = .int → x.toInt32.toInt64 = x ∧ y.toInt32.toInt64 = y

/-- Operands are not cut at the type that theirs are promoted to. -/
theorem uncut_of_promote (x y : Const) :
    Uncut (.promote x.type y.type) x.toInt64 y.toInt64 := by
  intro hint
  obtain ⟨⟨hx, hxlong⟩, hy, hylong⟩ := Prim.of_promote_eq_int hint
  exact ⟨Const.toInt32_toInt64 hx hxlong, Const.toInt32_toInt64 hy hylong⟩

/-- A checked division divides the numbers that it was given, unless the divisor
    is zero. -/
theorem checkedDivision_eq {divide : Int64 → Int64 → Option Int64} {t : Prim} {x y : Int64}
    (hcut : Uncut t x y) (hy : y ≠ 0) {r : Int64} (hdivide : divide x y = some r) :
    checkedDivision divide t x y = .ok r := by
  unfold checkedDivision
  by_cases hint : t = .int
  · obtain ⟨hx32, hy32⟩ := hcut hint
    simp only [if_neg hy, if_pos hint, hx32, hy32, hdivide]
  · simp only [if_neg hy, if_neg hint, hdivide]

/-- Arithmetic fails only by a zero divisor that is found before the division. -/
theorem Arithmetic.onIntegers_cases (o : Arithmetic) {t : Prim} {x y : Int64}
    (hcut : Uncut t x y) :
    (∃ r, o.onIntegers t x y = .ok r) ∨ o.onIntegers t x y = .error .divisionByZero := by
  cases o with
  | add => exact .inl ⟨x + y, rfl⟩
  | sub => exact .inl ⟨x - y, rfl⟩
  | mul => exact .inl ⟨x * y, rfl⟩
  | div =>
      by_cases hy : y = 0
      · exact .inr (by simp only [onIntegers, checkedDivision, if_pos hy])
      · exact .inl ⟨x / y, checkedDivision_eq hcut hy (by simp only [quotient?, if_neg hy])⟩
  | rem =>
      by_cases hy : y = 0
      · exact .inr (by simp only [onIntegers, checkedDivision, if_pos hy])
      · exact .inl ⟨x % y, checkedDivision_eq hcut hy (by simp only [remainder?, if_neg hy])⟩

/-- A unary operator has a result of the type of its application. -/
theorem UnaryOperator.apply_typed (op : UnaryOperator) (t : Prim) (x : Const) :
    ∃ c, op.apply (op.resultType t) x = .ok c ∧ c.type = op.resultType t := by
  cases op with
  | not => exact ⟨.boolean (!x.toBool), rfl, rfl⟩
  | neg =>
      -- The promoted type decides between the two kinds of numbers.
      by_cases hf : (Prim.promote t t).isFloating = true
      · refine ⟨.ofFloat (.promote t t) (-x.toFloat), ?_, Const.type_ofFloat _ _⟩
        simp only [apply, resultType, hf, if_true, Const.floatingOf, Except.mapError]
      · refine ⟨.ofInt64 (.promote t t) (-x.toInt64), ?_, Const.type_ofInt64 _ _⟩
        simp only [apply, resultType, hf, Const.integralOf, Prim.isIntegral, Bool.not_false,
          Bool.false_eq_true, if_true, if_false, Except.mapError]

namespace BinaryOperator

variable {t : Prim} {x y : Const}

/-- At a floating-point type, the result is rounded to it. -/
theorem compute_floating (op : BinaryOperator) (ht : t.isFloating = true) :
    op.compute t x y = (op.onFloats x.toFloat y.toFloat).map (Const.ofFloat t) := by
  have hb : t ≠ .boolean := fun h => absurd (h ▸ ht) (by decide)
  simp only [compute, if_neg hb, ht, if_true, Const.floatingOf]
  cases op.onFloats x.toFloat y.toFloat <;> rfl

/-- At an integer type, the result is wrapped to it. -/
theorem compute_integer (op : BinaryOperator) (ht : t.isInteger = true) :
    op.compute t x y = (op.onIntegers t x.toInt64 y.toInt64).map (Const.ofInt64 t) := by
  obtain ⟨hi, hb⟩ := Prim.isInteger_iff.1 ht
  have hf : t.isFloating = false := by simpa only [Prim.isIntegral, Bool.not_eq_true'] using hi
  simp only [compute, if_neg hb, hf, Bool.false_eq_true, if_false, Const.integralOf, hi, if_true]
  cases op.onIntegers t x.toInt64 y.toInt64 <;> rfl

/-- Integers are promoted to an integer type. -/
theorem isInteger_promote {a b : Prim} (ha : a.isIntegral = true) (hb : b.isIntegral = true) :
    (Prim.promote a b).isInteger = true := by
  refine Prim.isInteger_iff.2 ⟨?_, Prim.promote_ne_boolean a b⟩
  rw [Prim.isIntegral_promote, ha, hb, Bool.and_true]

/-- A binary operator that is defined on the types of its operands has a result
    of the type of its application, or divides by zero. -/
theorem apply_typed (op : BinaryOperator) (h : (op.resultType? x.type y.type).isSome = true) :
    (∃ c, op.apply (op.resultType x.type y.type) x y = .ok c ∧
        c.type = op.resultType x.type y.type) ∨
      op.apply (op.resultType x.type y.type) x y = .error .divisionByZero := by
  cases op with
  | comparison c => exact .inl ⟨_, rfl, rfl⟩
  | connective c =>
      by_cases hboth : x.type = .boolean ∧ y.type = .boolean
      · simp only [resultType, if_pos hboth]
        exact .inl ⟨_, rfl, rfl⟩
      · have hint : x.type.isInteger = true ∧ y.type.isInteger = true := by
          simpa only [resultType?, if_neg hboth, Option.isSome_ite, Bool.and_eq_true] using h
        have ht := isInteger_promote (Prim.isInteger_iff.1 hint.1).1 (Prim.isInteger_iff.1 hint.2).1
        simp only [resultType, if_neg hboth, apply, compute_integer _ ht]
        exact .inl ⟨_, rfl, Const.type_ofInt64 _ _⟩
  | shift s =>
      have hint : x.type.isInteger = true ∧ y.type.isInteger = true := by
        simpa only [resultType?, Option.isSome_ite, Bool.and_eq_true] using h
      have hx := (Prim.isInteger_iff.1 hint.1).1
      simp only [resultType, apply, compute_integer _ (isInteger_promote hx hx)]
      exact .inl ⟨_, rfl, Const.type_ofInt64 _ _⟩
  | arithmetic o =>
      simp only [resultType, apply]
      by_cases hf : (Prim.promote x.type y.type).isFloating = true
      · rw [compute_floating _ hf]
        exact .inl ⟨_, rfl, Const.type_ofFloat _ _⟩
      · have ht : (Prim.promote x.type y.type).isInteger = true :=
          Prim.isInteger_iff.2 ⟨by simpa only [Prim.isIntegral, Bool.not_eq_true', Bool.not_eq_true]
            using hf, Prim.promote_ne_boolean _ _⟩
        rw [compute_integer _ ht]
        -- The operands have the types that the division is carried out at.
        rcases o.onIntegers_cases (uncut_of_promote x y) with ⟨r, hr⟩ | hzero
        · refine .inl ⟨.ofInt64 _ r, ?_, Const.type_ofInt64 _ _⟩
          simp only [onIntegers, hr, Except.map]
        · exact .inr (by simp only [onIntegers, hzero, Except.map])

end BinaryOperator

namespace Term

/-- A term that the builders make, from constants, symbols and terms that they
    made before. Whatever a named function is applied to, its application has a
    type. -/
inductive Built : Term → Prop where
  | const (c : Const) : Built (.const c)
  | symbol (s : PrimSymbol) : Built (.symbol s)
  | unary {op : Operator} {arg t : Term} (harg : Built arg) (h : mkUnary op (some arg) = .ok t) :
      Built t
  | binary {op : Operator} {left right t : Term} (hleft : Built left) (hright : Built right)
      (h : mkBinary op (some left) (some right) = .ok t) : Built t
  | convert {direction : Conversion} {dest : String} {arg t : Term} (harg : Built arg)
      (h : mkConversion direction dest (some arg) = .ok t) : Built t
  | apply {type name : String} {args : List Value} {t : Term}
      (h : mkApply type name args = .ok t) : Built t

/-- Every operator in the term is defined on the types of its operands. -/
def WellTyped : Term → Prop
  | .unary op arg => (op.resultType? arg.type).isSome = true ∧ arg.WellTyped
  | .binary op left right =>
    (op.resultType? left.type right.type).isSome = true ∧ left.WellTyped ∧ right.WellTyped
  | .convert _ _ arg => arg.WellTyped
  | _ => True

theorem mkUnary_cases {op : Operator} {arg t : Term} (h : mkUnary op (some arg) = .ok t) :
    ∃ op', op = .unary op' ∧ t = .unary op' arg ∧ (op'.resultType? arg.type).isSome = true := by
  cases op with
  | binary op => exact absurd h (by simp only [mkUnary, reduceCtorEq, not_false_eq_true])
  | unary op =>
      simp only [mkUnary] at h
      cases htype : op.resultType? arg.type with
      | none => rw [htype] at h; cases h
      | some p =>
          rw [htype] at h
          exact ⟨op, rfl, (Except.ok.inj h).symm, by rw [htype]; rfl⟩

theorem mkBinary_cases {op : Operator} {left right t : Term}
    (h : mkBinary op (some left) (some right) = .ok t) :
    ∃ op', op = .binary op' ∧ t = .binary op' left right ∧
      (op'.resultType? left.type right.type).isSome = true := by
  cases op with
  | unary op => exact absurd h (by simp only [mkBinary, reduceCtorEq, not_false_eq_true])
  | binary op =>
      simp only [mkBinary] at h
      cases htype : op.resultType? left.type right.type with
      | none => rw [htype] at h; cases h
      | some p =>
          rw [htype] at h
          exact ⟨op, rfl, (Except.ok.inj h).symm, by rw [htype]; rfl⟩

/-- Operands that fit make a built term. -/
theorem Built.of_binary {op : BinaryOperator} {left right : Term} (hleft : left.Built)
    (hright : right.Built) (h : (op.resultType? left.type right.type).isSome = true) :
    (Term.binary op left right).Built := by
  obtain ⟨p, hp⟩ := Option.isSome_iff_exists.1 h
  have hmake : mkBinary (.binary op) (some left) (some right) = .ok (.binary op left right) := by
    simp only [mkBinary, hp]
  exact .binary hleft hright hmake

theorem mkConversion_cases {direction : Conversion} {dest : String} {arg t : Term}
    (h : mkConversion direction dest (some arg) = .ok t) :
    ∃ p, Prim.ofDescriptor? dest = some p ∧ t = .convert direction p arg := by
  simp only [mkConversion] at h
  cases hdest : Prim.ofDescriptor? dest with
  | none => rw [hdest] at h; cases h
  | some p =>
      rw [hdest] at h
      exact ⟨p, rfl, (Except.ok.inj h).symm⟩

/-- The builders make well-typed terms. -/
theorem Built.wellTyped {t : Term} (h : t.Built) : t.WellTyped := by
  induction h with
  | const c => exact trivial
  | symbol s => exact trivial
  | unary harg hmake ih =>
      obtain ⟨op, -, rfl, htype⟩ := mkUnary_cases hmake
      exact ⟨htype, ih⟩
  | binary hleft hright hmake ihleft ihright =>
      obtain ⟨op, -, rfl, htype⟩ := mkBinary_cases hmake
      exact ⟨htype, ihleft, ihright⟩
  | convert harg hmake ih =>
      obtain ⟨p, -, rfl⟩ := mkConversion_cases hmake
      exact ih
  | apply hmake =>
      unfold mkApply at hmake
      split at hmake
      · rw [← Except.ok.inj hmake]
        exact trivial
      · cases hmake

end Term

/-- The failures of an evaluation that come from values: the symbols' source
    fails, a divisor is zero, or a named function is met. -/
inductive EvalError.FromValues {ε : Type} (source : PrimSymbol → Except ε Const) :
    EvalError ε → Prop where
  | lookup {s : PrimSymbol} {cause : ε} (h : source s = .error cause) :
      FromValues source (.lookup cause)
  | divisionByZero (t : Term) : FromValues source (.divisionByZero t)
  | notEvaluable (t : Term) : FromValues source (.notEvaluable t)

namespace Term

variable {ε : Type}

/-- A well-typed term has a value of its type, or fails because of values. -/
theorem WellTyped.eval_cases (source : PrimSymbol → Except ε Const) :
    ∀ (t : Term), t.WellTyped →
      (∃ c, t.eval source = .ok c ∧ c.type = t.type) ∨
      ∃ e, t.eval source = .error e ∧ e.FromValues source
  | .const c, _ => .inl ⟨c, rfl, rfl⟩
  | .symbol s, _ => by
      cases hs : source s with
      | ok c => exact .inl ⟨c.convert s.type, by simp only [eval, hs], Const.type_convert _ _⟩
      | error cause => exact .inr ⟨.lookup cause, by simp only [eval, hs], .lookup hs⟩
  | .unary op arg, ⟨_, harg⟩ => by
      rcases WellTyped.eval_cases source arg harg with ⟨x, hx, -⟩ | ⟨e, he, hfrom⟩
      · obtain ⟨c, hc, htype⟩ := op.apply_typed arg.type x
        exact .inl ⟨c, by simp only [eval, hx, bind, Except.bind, hc, Except.mapError], htype⟩
      · exact .inr ⟨e, by simp only [eval, he, bind, Except.bind], hfrom⟩
  | .binary op left right, ⟨hop, hleft, hright⟩ => by
      rcases WellTyped.eval_cases source left hleft with ⟨x, hx, hxtype⟩ | ⟨e, he, hfrom⟩
      · rcases WellTyped.eval_cases source right hright with ⟨y, hy, hytype⟩ | ⟨e, he, hfrom⟩
        · -- Both values have the types that the builder looked at.
          rw [← hxtype, ← hytype] at hop
          rcases op.apply_typed hop with ⟨c, hc, htype⟩ | hzero
          · rw [hxtype, hytype] at hc htype
            exact .inl ⟨c, by simp only [eval, hx, hy, bind, Except.bind, hc, Except.mapError],
              htype⟩
          · rw [hxtype, hytype] at hzero
            exact .inr ⟨.divisionByZero (.binary op left right), by simp only [eval, hx, hy, bind,
              Except.bind, hzero, Except.mapError, EvalError.ofOperation], .divisionByZero _⟩
        · exact .inr ⟨e, by simp only [eval, hx, he, bind, Except.bind], hfrom⟩
      · exact .inr ⟨e, by simp only [eval, he, bind, Except.bind], hfrom⟩
  | .convert _ dest arg, harg => by
      rcases WellTyped.eval_cases source arg harg with ⟨x, hx, -⟩ | ⟨e, he, hfrom⟩
      · exact .inl ⟨x.convert dest, by simp only [eval, hx, bind, Except.bind, pure, Except.pure],
          Const.type_convert _ _⟩
      · exact .inr ⟨e, by simp only [eval, he, bind, Except.bind], hfrom⟩
  | .apply type name args, _ => .inr ⟨_, rfl, .notEvaluable _⟩

/-- Where the symbols of a well-typed term have values, only a zero divisor or a named
    function keeps the term from having one. -/
theorem WellTyped.eval_valued {source : PrimSymbol → Except ε Const} {t : Term} (ht : t.WellTyped)
    (hvalues : ∀ x ∈ t.occurrences, ∃ c, source x = .ok c) :
    (∃ c, t.eval source = .ok c ∧ c.type = t.type) ∨
      (∃ s, t.eval source = .error (.divisionByZero s)) ∨
      ∃ s, t.eval source = .error (.notEvaluable s) := by
  -- A source that never fails, and agrees with the given one where symbols occur.
  let total : PrimSymbol → Except ε Const := fun x =>
    (source x).tryCatch fun _ => .ok (.boolean false)
  have htotal : ∀ x cause, total x ≠ .error cause := by
    intro x cause
    simp only [total]
    cases source x <;> simp [Except.tryCatch]
  have hagree : t.eval source = t.eval total := by
    refine Term.eval_congr t fun x hx => ?_
    rcases hvalues x hx with ⟨c, hc⟩
    simp only [total, hc, Except.tryCatch]
  rw [hagree]
  rcases ht.eval_cases total with hvalue | ⟨e, he, hfrom⟩
  · exact .inl hvalue
  · cases hfrom with
    | lookup hs => exact absurd hs (htotal _ _)
    | divisionByZero s => exact .inr (.inl ⟨s, he⟩)
    | notEvaluable s => exact .inr (.inr ⟨s, he⟩)

/-- A conversion to a type that is given by its descriptor is never refused if
    the descriptor is that of a primitive type. -/
theorem convertTo_descriptor (c : Const) (p : Prim) :
    c.convertTo p.descriptor = .ok (c.convert p) := by
  simp only [Const.convertTo, Prim.ofDescriptor?_descriptor]

/-- The value of a built term has the type of the term and is in the range of
    that type. If there is no value, the source of the symbols' values has failed,
    an integer is divided by zero, or a named function is met; no conversion is
    refused, and there is no failure of types. -/
theorem eval_typed {t : Term} (ht : t.Built) (source : PrimSymbol → Except ε Const) :
    (∀ c, evalOf source (some t) = .ok c → c.type = t.type ∧
      ∀ least greatest, t.type.range? = some (least, greatest) →
        least ≤ c.value ∧ c.value ≤ greatest) ∧
    (∀ e, evalOf source (some t) = .error e →
      (∃ s cause, source s = .error cause ∧ e = .lookup cause) ∨
      (∃ s, e = .divisionByZero s) ∨ ∃ s, e = .notEvaluable s) ∧
    ∀ (c : Const) (p : Prim), c.convertTo p.descriptor = .ok (c.convert p) := by
  refine ⟨fun c hc => ?_, fun e he => ?_, convertTo_descriptor⟩
  · rcases ht.wellTyped.eval_cases source with ⟨c', hc', htype⟩ | ⟨e, he, -⟩
    · obtain rfl : c' = c := Except.ok.inj (hc'.symm.trans hc)
      exact ⟨htype, fun least greatest hrange => Const.range_of_type (htype ▸ hrange)⟩
    · exact absurd (he.symm.trans hc) (by simp only [reduceCtorEq, not_false_eq_true])
  · rcases ht.wellTyped.eval_cases source with ⟨c, hc, -⟩ | ⟨e', he', hfrom⟩
    · exact absurd (hc.symm.trans he) (by simp only [reduceCtorEq, not_false_eq_true])
    · obtain rfl : e' = e := Except.error.inj (he'.symm.trans he)
      cases hfrom with
      | lookup hs => exact .inl ⟨_, _, hs, rfl⟩
      | divisionByZero s => exact .inr (.inl ⟨s, rfl⟩)
      | notEvaluable s => exact .inr (.inr ⟨s, rfl⟩)

/-- Whether ten contains a number more than once, which is asked only if the
    number is not zero: `x != 0 && 10 / x > 1`. -/
def guardedQuotient : Term :=
  let x : Term := .symbol ⟨0, .int, .ofRoot "x"⟩
  .binary (.connective .and) (.binary (.comparison .ne) x (.const (.int 0)))
    (.binary (.comparison .gt) (.binary (.arithmetic .div) (.const (.int 10)) x) (.const (.int 1)))

theorem guardedQuotient_built : guardedQuotient.Built := by
  unfold guardedQuotient
  have hquotient : (Term.binary (.arithmetic .div) (.const (.int 10))
      (.symbol ⟨0, .int, .ofRoot "x"⟩)).Built := .of_binary (.const _) (.symbol _) rfl
  exact .of_binary (.of_binary (.symbol _) (.const _) rfl) (.of_binary hquotient (.const _) rfl) rfl

/-- All symbols have one value. -/
def constantly (c : Const) (_ : PrimSymbol) : Except Empty Const :=
  .ok c

/-- Three is contained in ten more than once, and the answer is a truth value; for
    zero there is no answer, and types have nothing to do with it. -/
theorem eval_typed_guarded :
    guardedQuotient.Built ∧
    (∃ c, evalOf (constantly (.int 3)) (some guardedQuotient) = .ok c ∧
      c.type = .boolean ∧ 0 ≤ c.value ∧ c.value ≤ 1) ∧
    ∃ e, evalOf (constantly (.int 0)) (some guardedQuotient) = .error e ∧
      ((∃ s, e = .divisionByZero s) ∨ ∃ s, e = .notEvaluable s) := by
  refine ⟨guardedQuotient_built, ⟨.boolean true, rfl, ?_⟩, ⟨_, rfl, ?_⟩⟩
  · obtain ⟨htype, hrange⟩ := (eval_typed guardedQuotient_built (constantly (.int 3))).1 _ rfl
    exact ⟨htype, hrange 0 1 rfl⟩
  · rcases (eval_typed guardedQuotient_built (constantly (.int 0))).2.1 _ rfl with ⟨s, cause, -⟩ | h
    · exact cause.elim
    · exact h

end Term

end PathWitness
