import PathWitness.Model
import PathWitness.Proofs.Computation
import PathWitness.Term.Symbols

/-!
# Evaluation and the Symbols of a Term

A term is evaluated by one recursion and its symbols are collected by another.
What makes it safe to check a condition before all symbols have values is that
the two visit the same places: the value of a term depends on its symbols and
on nothing else that a model says.

Symbols are collected once for each number, whereas evaluation meets every
occurrence. A model gives values to numbers, so the first occurrence of a
number answers for all the others.

## Main definitions

* `Model.Satisfies`: A model makes all conditions of a list true.

## Theorems

* `get?_set_self`, `get?_set_other`: Reading a model after a change.
* `mem_of_mem_firstOccurrences`: What is collected occurs.
* `exists_mem_firstOccurrences`: Every number that occurs is collected.
* `pairwise_firstOccurrences`: No number is collected twice.
* `occurrences_of_eval`: What has a value has values for its symbols.
* `eval_eq_of_symbols`, `eval_congr`: Sources that agree on the occurrences give the
  same value.
* `Model.eval_congr`: Models that agree on the symbols give the same value.
* `Model.eval_closed`: A term without symbols has one value in all models.
-/

namespace PathWitness

namespace Model

theorem lookup_insertEntry_self (n : Nat) (c : Const) (l : List (Nat × Const)) :
    (insertEntry n c l).lookup n = some c := by
  induction l with
  | nil => simp only [insertEntry, List.lookup_cons, beq_self_eq_true]
  | cons e rest ih =>
      unfold insertEntry
      by_cases hlt : n < e.1
      · simp only [if_pos hlt, List.lookup_cons, beq_self_eq_true]
      · rw [if_neg hlt]
        by_cases heq : n = e.1
        · simp only [if_pos heq, List.lookup_cons, beq_self_eq_true]
        · have hne : (n == e.1) = false := beq_eq_false_iff_ne.2 heq
          rw [if_neg heq, List.lookup_cons, hne]
          exact ih

theorem lookup_insertEntry_other {n k : Nat} (c : Const) (l : List (Nat × Const)) (hk : k ≠ n) :
    (insertEntry n c l).lookup k = l.lookup k := by
  have hkn : (k == n) = false := beq_eq_false_iff_ne.2 hk
  induction l with
  | nil => simp only [insertEntry, List.lookup_cons, hkn]
  | cons e rest ih =>
      unfold insertEntry
      by_cases hlt : n < e.1
      · rw [if_pos hlt, List.lookup_cons, hkn]
      · rw [if_neg hlt]
        by_cases heq : n = e.1
        · -- The entry that is replaced has the number of the new one.
          have hke : (k == e.1) = false := heq ▸ hkn
          rw [if_pos heq, List.lookup_cons, hkn, List.lookup_cons, hke]
        · rw [if_neg heq, List.lookup_cons, List.lookup_cons, ih]

/-- A symbol that was given a value has that value, in its own type. -/
theorem get?_set_self (m : Model) (x : PrimSymbol) (c : Const) :
    (m.set x c).get? x.number = some (c.convert x.type) :=
  lookup_insertEntry_self x.number (c.convert x.type) m.entries

/-- A value for one symbol leaves all other numbers as they were. -/
theorem get?_set_other (m : Model) (x : PrimSymbol) (c : Const) {n : Nat} (h : n ≠ x.number) :
    (m.set x c).get? n = m.get? n :=
  lookup_insertEntry_other (c.convert x.type) m.entries h

end Model

theorem mem_of_mem_firstOccurrences {x : PrimSymbol} {l : List PrimSymbol}
    (h : x ∈ firstOccurrences l) : x ∈ l := by
  induction l with
  | nil => exact h
  | cons s rest ih =>
      rcases List.mem_cons.1 h with rfl | hx
      · exact List.mem_cons_self
      · exact List.mem_cons_of_mem _ (ih (List.mem_filter.1 hx).1)

theorem exists_mem_firstOccurrences {x : PrimSymbol} {l : List PrimSymbol} (h : x ∈ l) :
    ∃ y ∈ firstOccurrences l, y.number = x.number := by
  induction l with
  | nil => exact absurd h List.not_mem_nil
  | cons s rest ih =>
      by_cases hs : s.number = x.number
      · exact ⟨s, List.mem_cons_self, hs⟩
      · rcases List.mem_cons.1 h with rfl | hx
        · exact absurd rfl hs
        · rcases ih hx with ⟨y, hy, hyx⟩
          -- `y` is not filtered out: its number is that of `x` and not of `s`.
          refine ⟨y, List.mem_cons_of_mem _ (List.mem_filter.2 ⟨hy, ?_⟩), hyx⟩
          exact bne_iff_ne.2 (fun hc => hs (hc.symm.trans hyx))

theorem pairwise_firstOccurrences (l : List PrimSymbol) :
    (firstOccurrences l).Pairwise (·.number ≠ ·.number) := by
  induction l with
  | nil => exact List.Pairwise.nil
  | cons s rest ih =>
      refine List.pairwise_cons.2 ⟨?_, ih.filter _⟩
      intro y hy
      exact (bne_iff_ne.1 (List.mem_filter.1 hy).2).symm

/-- Two sources that give the symbols of a term the same values give it the same value,
    or the same failure. What a source gives is converted, so the sources themselves need
    not agree. -/
theorem Term.eval_eq_of_symbols {ε : Type} {f g : PrimSymbol → Except ε Const} :
    ∀ t : Term, (∀ x ∈ t.occurrences, (Term.symbol x).eval f = (Term.symbol x).eval g) →
      t.eval f = t.eval g
  | .const c, _ => rfl
  | .symbol s, hfg => hfg s List.mem_cons_self
  | .unary op arg, hfg => by simp only [Term.eval, Term.eval_eq_of_symbols arg hfg]
  | .binary op left right, hfg => by
      have hl := Term.eval_eq_of_symbols left fun x hx => hfg x (List.mem_append_left _ hx)
      have hr := Term.eval_eq_of_symbols right fun x hx => hfg x (List.mem_append_right _ hx)
      simp only [Term.eval, hl, hr]
  | .convert _ dest arg, hfg => by simp only [Term.eval, Term.eval_eq_of_symbols arg hfg]
  -- Nothing is looked up below an application, which has no value anyway.
  | .apply type name args, _ => rfl

/-- Two sources of symbol values that agree on the occurrences of a term give
    it the same value, or the same failure. -/
theorem Term.eval_congr {ε : Type} {f g : PrimSymbol → Except ε Const} (t : Term)
    (hfg : ∀ x ∈ t.occurrences, f x = g x) : t.eval f = t.eval g :=
  t.eval_eq_of_symbols fun x hx => by simp only [Term.eval, hfg x hx]

/-- A term that has a value has no applications in it, and all of its symbols have
    values. -/
theorem Term.occurrences_of_eval {ε : Type} {f : PrimSymbol → Except ε Const} :
    ∀ (t : Term) {v : Const}, t.eval f = .ok v → ∀ x ∈ t.occurrences, ∃ c, f x = .ok c
  | .const c, _, _, _, hx => absurd hx List.not_mem_nil
  | .symbol s, v, h, x, hx => by
      rw [List.mem_singleton.1 hx]
      cases hs : f s with
      | ok c => exact ⟨c, rfl⟩
      | error e => simp only [Term.eval, hs, reduceCtorEq] at h
  | .unary op arg, v, h, x, hx => by
      rcases bind_eq_ok h with ⟨a, ha, _⟩
      exact Term.occurrences_of_eval arg ha x hx
  | .binary op left right, v, h, x, hx => by
      rcases bind_eq_ok h with ⟨a, ha, h⟩
      rcases bind_eq_ok h with ⟨b, hb, _⟩
      exact (List.mem_append.1 hx).elim (Term.occurrences_of_eval left ha x)
        (Term.occurrences_of_eval right hb x)
  | .convert _ dest arg, v, h, x, hx => by
      rcases bind_eq_ok h with ⟨a, ha, _⟩
      exact Term.occurrences_of_eval arg ha x hx
  | .apply type name args, v, h, x, hx => by simp only [Term.eval, reduceCtorEq] at h

namespace Model

/-- Models that agree on the numbers of a term's symbols give it the same
    value, or the same failure. -/
theorem eval_congr {m m' : Model} {t : Term}
    (hm : ∀ x ∈ t.symbols, m.get? x.number = m'.get? x.number) : m.eval t = m'.eval t := by
  refine Term.eval_congr t fun x hx => ?_
  -- The model is asked for a number, and the first occurrence of it is listed.
  rcases exists_mem_firstOccurrences hx with ⟨y, hy, hyx⟩
  have hget : m.get? x.number = m'.get? x.number := hyx ▸ hm y hy
  simp only [Model.lookup, hget]

/-- A term without symbols has the same value in all models. -/
theorem eval_closed {t : Term} (h : t.symbols = []) (m m' : Model) : m.eval t = m'.eval t :=
  eval_congr fun _ hx => absurd (h ▸ hx) List.not_mem_nil

/-- The model makes a condition true: the condition is there, it has a value,
    and the value counts as true. -/
def Fulfils (m : Model) (c : Option Term) : Prop :=
  ∃ t v, c = some t ∧ m.eval t = .ok v ∧ v.toBool = true

/-- The model makes all conditions of a list true. -/
def Satisfies (m : Model) (conditions : List (Option Term)) : Prop :=
  ∀ c ∈ conditions, m.Fulfils c

end Model

end PathWitness
