import PathWitness.Proofs.Term.Text
import PathWitness.Term.Render

/-!
# Evaluation and the Text of a Term

A term is evaluated here, and it is written out as an expression that others
evaluate. The connectives of truth values are written `&&` and `||`. Whoever
reads the text does not evaluate the right operand of these operators when the
left one decides, whereas evaluation here always needs the values of both. So a
guard like `x != 0 && 10 / x > 1` is false for zero when it is read, and is a
division by zero when it is evaluated.

This is the only difference. A value that evaluation gives is the value of the
text, and evaluation gives one exactly when no part of the term divides by zero,
counting the parts that a reader would skip.

## Main definitions

* `decided`: What a left operand decides alone.
* `Term.javaValue`: The value of the text of a term.
* `Term.parts`: A term and all terms in it.

## Theorems

* `exact_of_decided`: An operand that decides does so whatever the other one is.
* `javaValue_of_exact`: A value in exact arithmetic is the value of the text.
* `exact_of_parts`: If the text of every part has a value, so has the term.
* `eval_iff_javaValue`: When evaluation agrees with the text.
* `guarded_differs`: A term on which it does not.
-/

namespace PathWitness

/-- What the left operand decides alone, by the operator that is written behind
    it. -/
def decided (symbol : String) (x : Int) : Option Int :=
  if symbol = "&&" ∧ x = 0 then some 0
  else if symbol = "||" ∧ x = 1 then some 1
  else none

namespace Term

variable {ε : Type}

/-- The value of the text of a term. A right operand is not evaluated if the left
    one decides by the operator that is written. -/
def javaValue (values : PrimSymbol → Except ε Int) : Term → Except (EvalError ε) Int
  | .const c => .ok c.value
  | .symbol s => (values s).mapError .lookup
  | .unary op arg => do
    return op.exact arg.type (← arg.javaValue values)
  | .binary op left right => do
    let x ← left.javaValue values
    match decided (binarySymbol op left right) x with
    | some v => return v
    | none =>
      let y ← right.javaValue values
      match op.exact left.type right.type x y with
      | some v => return v
      | none => throw (.divisionByZero (.binary op left right))
  | .convert _ dest arg => do
    return Exact.cast dest (← arg.javaValue values)
  | .apply type name args => .error (.notEvaluable (.apply type name args))

/-- A term and all terms in it, except for the arguments of named functions. -/
def parts (t : Term) : List Term :=
  t :: match t with
    | .unary _ arg => arg.parts
    | .binary _ left right => left.parts ++ right.parts
    | .convert _ _ arg => arg.parts
    | _ => []

theorem mem_parts_self (t : Term) : t ∈ t.parts := by
  unfold parts
  exact List.mem_cons_self

/-- Conjunction and disjunction are written as no other operator is, and only
    between truth values. -/
theorem eq_connective_of_symbol {op : BinaryOperator} {left right : Term} {c : Connective}
    (hc : c ≠ .xor) (h : binarySymbol op left right = c.symbol) :
    op = .connective c ∧ left.type = .boolean := by
  have hread : Operator.ofSymbol? c.symbol = some (.binary (.connective c)) := by
    cases c <;> decide
  have hop := (op.symbolFor_spec (op.resultType left.type right.type)).1
  rw [show op.symbolFor _ = c.symbol from h, hread] at hop
  obtain rfl : op = .connective c := (Operator.binary.inj (Option.some.inj hop)).symm
  refine ⟨rfl, ?_⟩
  by_cases hboth : left.type = .boolean ∧ right.type = .boolean
  · exact hboth.1
  · -- Between integers the bitwise operators are written.
    have hbits : binarySymbol (.connective c) left right = c.bitwiseSymbol := by
      rw [binarySymbol, BinaryOperator.resultType, if_neg hboth]
      exact if_neg (Prim.promote_ne_boolean _ _)
    rw [hbits] at h
    cases c with
    | and => exact absurd h (by decide)
    | or => exact absurd h (by decide)
    | xor => exact absurd rfl hc

/-- An operand that decides does so whatever the other one is. -/
theorem exact_of_decided {op : BinaryOperator} {left right : Term} {x v : Int}
    (h : decided (binarySymbol op left right) x = some v) (y : Int) :
    op.exact left.type right.type x y = some v := by
  unfold decided at h
  split at h
  · rename_i hand
    obtain ⟨rfl, htype⟩ := eq_connective_of_symbol (c := .and) (by decide) hand.1
    rw [← Option.some.inj h, hand.2]
    simp only [BinaryOperator.exact, if_pos htype, Connective.exactTruth, Int.zero_ne_one,
      false_and, if_false]
  · split at h
    · rename_i hor
      obtain ⟨rfl, htype⟩ := eq_connective_of_symbol (c := .or) (by decide) hor.1
      rw [← Option.some.inj h, hor.2]
      simp only [BinaryOperator.exact, if_pos htype, Connective.exactTruth, true_or, if_true]
    · cases h

variable {values : PrimSymbol → Except ε Int}

/-- A value in exact arithmetic is the value of the text. -/
theorem javaValue_of_exact : ∀ (t : Term) {v : Int}, t.exact values = .ok v →
    t.javaValue values = .ok v
  | .const c, v, h => h
  | .symbol s, v, h => h
  | .unary op arg, v, h => by
      rcases bind_eq_ok h with ⟨x, hx, hv⟩
      simp only [javaValue, javaValue_of_exact arg hx]
      exact hv
  | .binary op left right, v, h => by
      rcases bind_eq_ok h with ⟨x, hx, h⟩
      rcases bind_eq_ok h with ⟨y, hy, hv⟩
      simp only [javaValue, javaValue_of_exact left hx, javaValue_of_exact right hy]
      cases hdecided : decided (binarySymbol op left right) x with
      | none =>
          simp only [bind, Except.bind, hdecided]
          exact hv
      | some u =>
          -- The right operand is not looked at, and it would not have mattered.
          rw [exact_of_decided hdecided y] at hv
          simp only [bind, Except.bind, hdecided]
          exact hv
  | .convert d dest arg, v, h => by
      rcases bind_eq_ok h with ⟨x, hx, hv⟩
      simp only [javaValue, javaValue_of_exact arg hx]
      exact hv
  | .apply type name args, v, h => h

/-- Exact arithmetic gives a term a value only if it gives one to all its parts. -/
theorem exact_part : ∀ (t : Term) {v : Int}, t.exact values = .ok v →
    ∀ s ∈ t.parts, ∃ w, s.exact values = .ok w
  | .const c, v, h, s, hs => ⟨v, List.mem_singleton.1 hs ▸ h⟩
  | .symbol x, v, h, s, hs => ⟨v, List.mem_singleton.1 hs ▸ h⟩
  | .unary op arg, v, h, s, hs => by
      rcases List.mem_cons.1 hs with rfl | hs
      · exact ⟨v, h⟩
      · rcases bind_eq_ok h with ⟨x, hx, -⟩
        exact exact_part arg hx s hs
  | .binary op left right, v, h, s, hs => by
      rcases List.mem_cons.1 hs with rfl | hs
      · exact ⟨v, h⟩
      · rcases bind_eq_ok h with ⟨x, hx, h⟩
        rcases bind_eq_ok h with ⟨y, hy, -⟩
        rcases List.mem_append.1 hs with hs | hs
        · exact exact_part left hx s hs
        · exact exact_part right hy s hs
  | .convert d dest arg, v, h, s, hs => by
      rcases List.mem_cons.1 hs with rfl | hs
      · exact ⟨v, h⟩
      · rcases bind_eq_ok h with ⟨x, hx, -⟩
        exact exact_part arg hx s hs
  | .apply type name args, v, h, s, hs => by cases h

/-- If the text of every part has a value, exact arithmetic gives the term the
    value of its text. -/
theorem exact_of_parts : ∀ (t : Term), (∀ s ∈ t.parts, ∃ w, s.javaValue values = .ok w) →
    t.exact values = t.javaValue values
  | .const c, _ => rfl
  | .symbol s, _ => rfl
  | .unary op arg, h => by
      have ih := exact_of_parts arg fun s hs => h s (List.mem_cons_of_mem _ hs)
      simp only [exact, javaValue, ih]
  | .binary op left right, h => by
      have hl : ∀ s ∈ left.parts, ∃ w, s.javaValue values = .ok w :=
        fun s hs => h s (List.mem_cons_of_mem _ (List.mem_append_left _ hs))
      have hr : ∀ s ∈ right.parts, ∃ w, s.javaValue values = .ok w :=
        fun s hs => h s (List.mem_cons_of_mem _ (List.mem_append_right _ hs))
      obtain ⟨x, hx⟩ := hl left left.mem_parts_self
      obtain ⟨y, hy⟩ := hr right right.mem_parts_self
      simp only [exact, javaValue, exact_of_parts left hl, exact_of_parts right hr, hx, hy]
      cases hdecided : decided (binarySymbol op left right) x with
      | none =>
          cases hv : op.exact left.type right.type x y <;>
            simp only [bind, Except.bind, hdecided, hv]
      | some u => simp only [bind, Except.bind, hdecided, exact_of_decided hdecided y]
  | .convert d dest arg, h => by
      have ih := exact_of_parts arg fun s hs => h s (List.mem_cons_of_mem _ hs)
      simp only [exact, javaValue, ih]
  | .apply type name args, _ => rfl

/-- Evaluation gives a value exactly if the text of every part of the term has
    one, also of the parts that are skipped when the text is evaluated. It is the
    value of the text. -/
theorem eval_iff_javaValue {t : Term} (ht : t.Built) (hint : t.IsIntegral) (m : Model) (v : Int) :
    (∃ c, m.eval t = .ok c ∧ c.type = t.type ∧ c.value = v) ↔
      t.javaValue m.values = .ok v ∧ ∀ s ∈ t.parts, ∃ w, s.javaValue m.values = .ok w := by
  have hexact := eval_eq_exact m.gives_values t ht.wellTyped hint
  constructor
  · rintro ⟨c, hc, -, rfl⟩
    have hv : t.exact m.values = .ok c.value := by
      rw [← hexact, show t.eval m.lookup = .ok c from hc]
      rfl
    refine ⟨javaValue_of_exact t hv, fun s hs => ?_⟩
    obtain ⟨w, hw⟩ := exact_part t hv s hs
    exact ⟨w, javaValue_of_exact s hw⟩
  · rintro ⟨hv, hparts⟩
    rw [exact_of_parts t hparts, hv] at hexact
    cases hc : t.eval m.lookup with
    | error e => rw [hc] at hexact; cases hexact
    | ok c =>
        rw [hc] at hexact
        exact ⟨c, hc, type_of_eval ht.wellTyped hc, Except.ok.inj hexact⟩

theorem guardedQuotient_integral : guardedQuotient.IsIntegral :=
  ⟨rfl, ⟨rfl, rfl, rfl⟩, rfl, ⟨rfl, rfl, rfl⟩, rfl⟩

/-- For three, nothing is skipped. -/
theorem eval_iff_javaValue_guarded :
    guardedQuotient.Built ∧ guardedQuotient.IsIntegral ∧
    (∃ c, (Model.empty.insert 0 (.int 3)).eval guardedQuotient = .ok c ∧
      c.type = guardedQuotient.type ∧ c.value = 1) ∧
    guardedQuotient.javaValue (Model.empty.insert 0 (.int 3)).values = .ok 1 ∧
    ∀ s ∈ guardedQuotient.parts,
      ∃ w, s.javaValue (Model.empty.insert 0 (.int 3)).values = .ok w := by
  have hvalue : ∃ c, (Model.empty.insert 0 (.int 3)).eval guardedQuotient = .ok c ∧
      c.type = guardedQuotient.type ∧ c.value = 1 := ⟨.boolean true, rfl, rfl, rfl⟩
  exact ⟨guardedQuotient_built, guardedQuotient_integral, hvalue,
    (eval_iff_javaValue guardedQuotient_built guardedQuotient_integral _ 1).1 hvalue⟩

/-- For zero the guard decides. The text of the term is false, and evaluation
    divides by zero. -/
theorem guarded_differs :
    guardedQuotient.Built ∧ guardedQuotient.IsIntegral ∧
    guardedQuotient.render (fun _ => (.ok "x" : Except MissingValue String))
      = .ok "((x != 0) && ((10 / x) > 1))" ∧
    guardedQuotient.javaValue (Model.empty.insert 0 (.int 0)).values = .ok 0 ∧
    (Model.empty.insert 0 (.int 0)).eval guardedQuotient
      = .error (.divisionByZero (.binary (.arithmetic .div) (.const (.int 10))
          (.symbol ⟨0, .int, .ofRoot "x"⟩))) :=
  ⟨guardedQuotient_built, guardedQuotient_integral, congrArg Except.ok (by decide), rfl, rfl⟩

end Term

end PathWitness
