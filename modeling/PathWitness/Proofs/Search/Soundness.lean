import PathWitness.Proofs.Evaluation
import PathWitness.Search.Solver

/-!
# Answers of the Search are Right

A condition is checked once, when its last symbol gets a value, and never
again. That is enough because of how the levels are laid out: a level checks
only conditions whose symbols have values by then, and no later level gives
another value to one of those symbols. `Planned` states this layout, and
`assign_found` is the induction along the levels that it carries.

The finding that there is no model is only ever made of a condition without
symbols. Such a condition has one value in all models, so the finding holds for
all models, not only for those that the search would have tried.

## Main definitions

* `Right`: An answer that is right for a list of conditions.
* `SearchError.isMalformed`, `SearchError.isTrial`: Where errors come from.
* `Search.Planned`: Levels that check conditions late enough.

## Theorems

* `tryValues_found`: A model that is found extends a value that was tried.
* `assign_found`: The model that is found passes the checks of all levels.
* `assign_failed`: A search that breaks off has met an error in trying values.
* `levels_planned`: The levels of a plan check conditions late enough.
* `plan_complete`: The levels of a plan check every condition with symbols.
* `solve_found`: A model that is returned makes all conditions true.
* `solve_unsatisfiable`: Conditions that are refused have no model.
* `LocalSearch.solve_right`, `LocalSearch.solve_sound`: Every answer of the
  search is right.
-/

namespace PathWitness

/-- An answer that is right for a list of conditions: a model makes them all
    true, and the finding that there is no model is made when there is none.
    Any other failure says nothing about the conditions. -/
def Right (conditions : List (Option Term)) : Except SolveError Model → Prop
  | .ok m => m.Satisfies conditions
  | .error e => e.isUnsat = true → ∀ m : Model, ¬ m.Satisfies conditions

namespace SearchError

/-- An error about the conditions as such, before any of them is evaluated. -/
def isMalformed : SearchError → Bool
  | notBoolean _ _ => true
  | _ => false

/-- An error in trying values: a condition cannot be evaluated, or the search has to stop. -/
def isTrial : SearchError → Bool
  | notEvaluable _ | evaluation _ | budget _ | interrupted _ => true
  | _ => false

theorem kind_of_isMalformed {e : SearchError} (h : e.isMalformed = true) : e.kind ≠ .unsat := by
  cases e <;> simp [isMalformed] at h
  simp [kind]

-- An error of evaluation is passed on with a kind of its own.
theorem kind_of_isTrial {e : SearchError} (h : e.isTrial = true) : e.kind ≠ .unsat := by
  cases e with
  | evaluation e => cases e <;> simp [kind, EvalError.kind, Fault.kind]
  | notEvaluable e => simp [kind]
  | budget n => simp [kind]
  | interrupted c => simp [kind]
  | notBoolean i c => cases h
  | unsatisfiable c => cases h
  | seeds e => cases h
  | noModel n => cases h

end SearchError

namespace Search

theorem eval_of_holds {m : Model} {c : Term} (h : holds m c = .ok true) :
    ∃ v, m.eval c = .ok v ∧ v.toBool = true := by
  unfold holds at h
  split at h
  · rename_i v heval
    exact ⟨v, heval, Except.ok.inj h⟩
  · exact absurd h (by simp only [Except.ok.injEq, reduceCtorEq, not_false_eq_true])
  · exact absurd h (by simp only [reduceCtorEq, not_false_eq_true])
  · exact absurd h (by simp only [reduceCtorEq, not_false_eq_true])

theorem not_eval_of_not_holds {m : Model} {c : Term} (h : holds m c = .ok false) :
    ¬ ∃ v, m.eval c = .ok v ∧ v.toBool = true := by
  rintro ⟨v, heval, hv⟩
  unfold holds at h
  rw [heval] at h
  simp only [hv, Except.ok.injEq, reduceCtorEq] at h

/-- Whether a condition holds depends on the symbols it has. -/
theorem holds_congr {m m' : Model} {c : Term}
    (hm : ∀ x ∈ c.symbols, m.get? x.number = m'.get? x.number) : holds m c = holds m' c := by
  unfold holds
  rw [Model.eval_congr hm]

theorem isTrial_of_holds_error {m : Model} {c : Term} {e : SearchError}
    (h : holds m c = .error e) : e.isTrial = true := by
  unfold holds at h
  split at h
  · cases h
  · cases h
  · rw [← Except.error.inj h]
    rfl
  · rw [← Except.error.inj h]
    rfl

theorem allHold_cons {m : Model} {c : Term} {rest : List Term} :
    allHold m (c :: rest) = .ok true ↔ holds m c = .ok true ∧ allHold m rest = .ok true := by
  simp only [allHold, bind, Except.bind]
  cases holds m c with
  | error e => simp only [reduceCtorEq, false_and]
  | ok b => cases b <;> simp only [pure, Except.pure, Bool.false_eq_true, if_false, if_true,
      Except.ok.injEq, false_and, true_and]

theorem holds_of_allHold {m : Model} {cs : List Term} (h : allHold m cs = .ok true) :
    ∀ c ∈ cs, holds m c = .ok true := by
  induction cs with
  | nil => intro c hc; exact absurd hc List.not_mem_nil
  | cons a rest ih =>
      intro c hc
      rcases allHold_cons.1 h with ⟨ha, hrest⟩
      rcases List.mem_cons.1 hc with rfl | hc
      · exact ha
      · exact ih hrest c hc

theorem isTrial_of_allHold_error {m : Model} {cs : List Term} {e : SearchError}
    (h : allHold m cs = .error e) : e.isTrial = true := by
  induction cs with
  | nil => exact absurd h (by simp only [allHold, reduceCtorEq, not_false_eq_true])
  | cons c rest ih =>
      simp only [allHold, bind, Except.bind] at h
      cases hc : holds m c with
      | error e' =>
          rw [hc] at h
          rw [← Except.error.inj h]
          exact isTrial_of_holds_error hc
      | ok b =>
          rw [hc] at h
          cases b with
          | false => exact absurd h (by simp only [pure, Except.pure, Bool.false_eq_true, if_false,
              reduceCtorEq, not_false_eq_true])
          | true => exact ih (by simpa only [if_true] using h)

/-- A model found below a level extends a value that passed the checks of the
    level. -/
theorem tryValues_found {limits : SearchLimits} {x : PrimSymbol} {checks : List Term}
    {next : Model → Nat → Outcome} {m m' : Model} {values : List Const} {steps : Nat}
    (h : tryValues limits x checks next m values steps = .found m') :
    ∃ v steps', allHold (m.set x v) checks = .ok true ∧ next (m.set x v) steps' = .found m' := by
  induction values generalizing steps with
  | nil => exact absurd h (by simp only [tryValues, reduceCtorEq, not_false_eq_true])
  | cons v rest ih =>
      simp only [tryValues] at h
      split at h
      · exact absurd h (by simp only [reduceCtorEq, not_false_eq_true])
      · split at h
        · exact absurd h (by simp only [reduceCtorEq, not_false_eq_true])
        · exact ih h
        · rename_i hchecks
          split at h
          · -- The levels below were searched in vain, and the next value is tried.
            exact ih h
          · exact ⟨v, steps + 1, hchecks, h⟩

theorem isTrial_of_stepFault {limits : SearchLimits} {step : Nat} {e : SearchError}
    (h : stepFault? limits step = some e) : e.isTrial = true := by
  unfold stepFault? interruptionAt? at h
  split at h
  · rw [← Option.some.inj h]
    rfl
  · split at h
    · rcases Option.map_eq_some_iff.1 h with ⟨i, _, hi⟩
      rw [← hi]
      rfl
    · cases h

theorem tryValues_failed {limits : SearchLimits} {x : PrimSymbol} {checks : List Term}
    {next : Model → Nat → Outcome} {m : Model} {values : List Const} {steps : Nat}
    {e : SearchError} (hnext : ∀ m' steps' e', next m' steps' = .failed e' → e'.isTrial = true)
    (h : tryValues limits x checks next m values steps = .failed e) : e.isTrial = true := by
  induction values generalizing steps with
  | nil => exact absurd h (by simp only [tryValues, reduceCtorEq, not_false_eq_true])
  | cons v rest ih =>
      -- Either the step fails, or the checks, or the levels below. A value that
      -- fails its checks or leads nowhere is no failure: the next one is tried.
      simp only [tryValues] at h
      split at h
      · rename_i hfault
        rw [← Outcome.failed.inj h]
        exact isTrial_of_stepFault hfault
      · split at h
        · rename_i hchecks
          rw [← Outcome.failed.inj h]
          exact isTrial_of_allHold_error hchecks
        · exact ih h
        · split at h
          · exact ih h
          · exact hnext _ _ _ h

/-- A search that breaks off has met an error in trying values. -/
theorem assign_failed {limits : SearchLimits} {levels : List Level} {m : Model} {steps : Nat}
    {e : SearchError} (h : assign limits levels m steps = .failed e) : e.isTrial = true := by
  induction levels generalizing m steps e with
  | nil => exact absurd h (by simp only [assign, reduceCtorEq, not_false_eq_true])
  | cons l rest ih => exact tryValues_failed (fun _ _ _ => ih) h

/-- Levels that check conditions late enough, below levels that have given
    values to some numbers: a level is about a number without a value, and the
    conditions it checks have no symbols but those with values by then. -/
def Planned : List Nat → List Level → Prop
  | _, [] => True
  | done, l :: rest =>
    l.symbol.number ∉ done ∧
    (∀ c ∈ l.checks, ∀ x ∈ c.symbols, x.number ∈ done ++ [l.symbol.number]) ∧
    Planned (done ++ [l.symbol.number]) rest

/-- The model that is found keeps the values given before, and passes the
    checks of all levels. The induction is on the levels: what a level checks
    stays true because the levels below keep the values it depends on. -/
theorem assign_found {limits : SearchLimits} {levels : List Level} {done : List Nat}
    {m m' : Model} {steps : Nat} (hplan : Planned done levels)
    (h : assign limits levels m steps = .found m') :
    (∀ n ∈ done, m'.get? n = m.get? n) ∧
      ∀ l ∈ levels, ∀ c ∈ l.checks, holds m' c = .ok true := by
  induction levels generalizing done m steps with
  | nil =>
      have hm : m = m' := Outcome.found.inj h
      rw [hm]
      exact ⟨fun _ _ => rfl, fun l hl => absurd hl List.not_mem_nil⟩
  | cons l rest ih =>
      rcases hplan with ⟨hfresh, hchecks, hrest⟩
      rcases tryValues_found h with ⟨v, steps', hall, hnext⟩
      rcases ih hrest hnext with ⟨hkeep, hbelow⟩
      refine ⟨fun n hn => ?_, fun l' hl' c hc => ?_⟩
      · -- This level's number had no value before, so `n` is another.
        have hne : n ≠ l.symbol.number := fun hc => hfresh (hc ▸ hn)
        rw [hkeep n (List.mem_append_left _ hn), Model.get?_set_other m l.symbol v hne]
      · rcases List.mem_cons.1 hl' with rfl | hl'
        · -- The check was made when the level's symbol had just got its value.
          rw [holds_congr fun x hx => hkeep x.number (hchecks c hc x hx)]
          exact holds_of_allHold hall c hc
        · exact hbelow l' hl' c hc

/-- The place of a symbol whose number is in the order is the place of that
    number. -/
theorem place_spec {order : List PrimSymbol} {x : PrimSymbol}
    (h : ∃ y ∈ order, y.number = x.number) :
    ∃ y, order[place order x]? = some y ∧ y.number = x.number := by
  rcases h with ⟨y, hy, hyx⟩
  have hlt : place order x < order.length :=
    List.findIdx_lt_length.2 ⟨y, hy, beq_iff_eq.2 hyx⟩
  exact ⟨order[place order x], List.getElem?_eq_getElem hlt,
    beq_iff_eq.1 (List.findIdx_getElem (w := hlt))⟩

theorem place_le_lastPlace {order : List PrimSymbol} {q : Question} {i : Nat}
    (h : lastPlace? order q = some i) {x : PrimSymbol} (hx : x ∈ q.symbols) :
    place order x ≤ i :=
  (List.max?_eq_some_iff.1 h).2 _ (List.mem_map_of_mem hx)

theorem lastPlace_lt {order : List PrimSymbol} {q : Question} {i : Nat}
    (hmem : ∀ x ∈ q.symbols, ∃ y ∈ order, y.number = x.number)
    (h : lastPlace? order q = some i) : i < order.length := by
  rcases List.mem_map.1 (List.max?_eq_some_iff.1 h).1 with ⟨x, hx, hxi⟩
  rcases place_spec (hmem x hx) with ⟨y, hy, _⟩
  rw [← hxi]
  exact (List.getElem?_eq_some_iff.1 hy).1

theorem symbols_of_lastPlace_none {order : List PrimSymbol} {q : Question}
    (h : lastPlace? order q = none) : q.symbols = [] :=
  List.map_eq_nil_iff.1 (List.max?_eq_none_iff.1 h)

/-- Questions whose symbols are those of their conditions. -/
def Listed (qs : List Question) : Prop :=
  ∀ q ∈ qs, q.condition.symbols = q.symbols

/-- The questions are about the conditions in their order, and list the
    symbols of each. -/
theorem questions_spec {i : Nat} {conditions : List (Option Term)} {qs : List Question}
    (h : questions i conditions = .ok qs) :
    conditions = qs.map (fun q => some q.condition) ∧ Listed qs := by
  induction conditions generalizing i qs with
  | nil =>
      rw [← Except.ok.inj h]
      exact ⟨rfl, fun q hq => absurd hq List.not_mem_nil⟩
  | cons c rest ih =>
      cases c with
      | none => exact absurd h (by simp only [questions, reduceCtorEq, not_false_eq_true])
      | some t =>
          simp only [questions] at h
          split at h
          · rcases bind_eq_ok h with ⟨others, hothers, hqs⟩
            rcases ih hothers with ⟨hrest, hlisted⟩
            rw [← Except.ok.inj hqs]
            refine ⟨by rw [List.map_cons, ← hrest], fun q hq => ?_⟩
            rcases List.mem_cons.1 hq with rfl | hq
            · rfl
            · exact hlisted q hq
          · exact absurd h (by simp only [reduceCtorEq, not_false_eq_true])

theorem isMalformed_of_questions_error {i : Nat} {conditions : List (Option Term)}
    {e : SearchError} (h : questions i conditions = .error e) : e.isMalformed = true := by
  induction conditions generalizing i e with
  | nil => exact absurd h (by simp only [questions, reduceCtorEq, not_false_eq_true])
  | cons c rest ih =>
      cases c with
      | none =>
          rw [← Except.error.inj h]
          rfl
      | some t =>
          simp only [questions] at h
          split at h
          · cases hrest : questions (i + 1) rest with
            | error e' =>
                rw [hrest] at h
                rw [← Except.error.inj h]
                exact ih hrest
            | ok qs =>
                rw [hrest] at h
                exact absurd h (by simp only [bind, Except.bind, pure, Except.pure, reduceCtorEq,
                  not_false_eq_true])
          · rw [← Except.error.inj h]
            rfl

/-- When the conditions without symbols are decided in favour, all of them
    hold. -/
theorem decideClosed_ok {order : List PrimSymbol} {qs : List Question}
    (h : decideClosed order qs = .ok ()) :
    ∀ q ∈ qs, lastPlace? order q = none → holds .empty q.condition = .ok true := by
  induction qs with
  | nil => intro q hq; exact absurd hq List.not_mem_nil
  | cons a rest ih =>
      intro q hq hclosed
      simp only [decideClosed] at h
      split at h
      · -- The first condition has symbols and is left to the levels.
        rename_i i ha
        rcases List.mem_cons.1 hq with rfl | hq
        · exact absurd (ha.symm.trans hclosed) (by simp only [reduceCtorEq, not_false_eq_true])
        · exact ih h q hq hclosed
      · rcases bind_eq_ok h with ⟨b, hb, hrest⟩
        cases b with
        | false => exact absurd hrest (by simp only [Bool.false_eq_true, if_false, reduceCtorEq,
            not_false_eq_true])
        | true =>
            rcases List.mem_cons.1 hq with rfl | hq
            · exact hb
            · exact ih (by simpa only [if_true] using hrest) q hq hclosed

/-- When the conditions without symbols are not decided in favour, one of them does
    not hold, or it cannot be evaluated. -/
theorem decideClosed_error {order : List PrimSymbol} {qs : List Question} {e : SearchError}
    (h : decideClosed order qs = .error e) : e.isTrial = true ∨
      ∃ q ∈ qs, e = .unsatisfiable q.condition ∧ lastPlace? order q = none ∧
        holds .empty q.condition = .ok false := by
  induction qs with
  | nil => exact absurd h (by simp only [decideClosed, reduceCtorEq, not_false_eq_true])
  | cons a rest ih =>
      have hrest : decideClosed order rest = .error e → e.isTrial = true ∨
          ∃ q ∈ a :: rest, e = .unsatisfiable q.condition ∧ lastPlace? order q = none ∧
            holds .empty q.condition = .ok false := fun h =>
        (ih h).imp_right fun ⟨q, hq, hspec⟩ => ⟨q, List.mem_cons_of_mem _ hq, hspec⟩
      simp only [decideClosed] at h
      split at h
      · exact hrest h
      · rename_i ha
        cases hb : holds .empty a.condition with
        | error e' =>
            rw [hb] at h
            rw [← Except.error.inj h]
            exact .inl (isTrial_of_holds_error hb)
        | ok b =>
            rw [hb] at h
            cases b with
            | false => exact .inr ⟨a, List.mem_cons_self, (Except.error.inj h).symm, ha, hb⟩
            | true => exact hrest (by simpa only [bind, Except.bind, if_true] using h)

/-- Every symbol of a question has its number in the order. -/
theorem exists_mem_order {qs : List Question} {q : Question} (hq : q ∈ qs) {x : PrimSymbol}
    (hx : x ∈ q.symbols) : ∃ y ∈ order qs, y.number = x.number :=
  exists_mem_firstOccurrences (List.mem_flatMap.2 ⟨q, hq, hx⟩)

/-- A condition that is completed at a place has no symbols beyond it. -/
theorem completedAt_covered {qs : List Question} (hlisted : Listed qs) {i : Nat} {c : Term}
    (hc : c ∈ completedAt (order qs) qs i) :
    ∀ x ∈ c.symbols, x.number ∈ ((order qs).take (i + 1)).map PrimSymbol.number := by
  rcases List.mem_map.1 hc with ⟨q, hq, rfl⟩
  rcases List.mem_filter.1 hq with ⟨hq, hlast⟩
  intro x hx
  rw [hlisted q hq] at hx
  have hle := place_le_lastPlace (beq_iff_eq.1 hlast) hx
  rcases place_spec (exists_mem_order hq hx) with ⟨y, hy, hyx⟩
  rw [← hyx]
  refine List.mem_map_of_mem (List.mem_of_getElem? (i := place (order qs) x) ?_)
  rw [List.getElem?_take_of_lt (by omega), hy]

/-- The levels from some place on check conditions late enough. -/
theorem levels_planned {limits : SearchLimits} {qs : List Question} (hlisted : Listed qs) :
    ∀ (before rest : List PrimSymbol) (ls : List Level), order qs = before ++ rest →
      levels limits (order qs) qs before.length rest = .ok ls →
      Planned (before.map PrimSymbol.number) ls := by
  intro before rest
  induction rest generalizing before with
  | nil =>
      intro ls _ h
      rw [← Except.ok.inj h]
      exact trivial
  | cons x rest ih =>
      intro ls horder h
      simp only [levels] at h
      split at h
      · exact absurd h (by simp only [reduceCtorEq, not_false_eq_true])
      · rename_i values _
        rcases bind_eq_ok h with ⟨below, hbelow, hls⟩
        -- The induction hypothesis is about the order split one place later.
        have hsnoc : order qs = (before ++ [x]) ++ rest := by
          rw [horder, List.append_assoc, List.singleton_append]
        have hmap : before.map PrimSymbol.number ++ [x.number]
            = (before ++ [x]).map PrimSymbol.number := by
          rw [List.map_append, List.map_singleton]
        rw [← Except.ok.inj hls]
        refine ⟨?_, fun c hc z hz => ?_, ?_⟩
        · -- No number stands twice in the order.
          intro hmem
          rcases List.mem_map.1 hmem with ⟨y, hy, hyx⟩
          have hpair := pairwise_firstOccurrences (qs.flatMap (·.symbols))
          rw [show firstOccurrences (qs.flatMap (·.symbols)) = before ++ x :: rest from horder]
            at hpair
          exact (List.pairwise_append.1 hpair).2.2 y hy x List.mem_cons_self hyx
        · -- What is completed here has its symbols among those up to `x`.
          have hz' := completedAt_covered hlisted hc z hz
          have hlength : (before ++ [x]).length = before.length + 1 := by
            rw [List.length_append, List.length_singleton]
          rwa [hsnoc, ← hlength, List.take_left, ← hmap] at hz'
        · show Planned (before.map PrimSymbol.number ++ [x.number]) below
          rw [hmap]
          refine ih (before ++ [x]) below hsnoc ?_
          rw [List.length_append, List.length_singleton]
          exact hbelow

/-- Every place has a level that checks the conditions completed there. -/
theorem levels_complete {limits : SearchLimits} {symbols : List PrimSymbol} {qs : List Question}
    {rest : List PrimSymbol} {start : Nat} {ls : List Level}
    (h : levels limits symbols qs start rest = .ok ls) {i : Nat} (hlo : start ≤ i)
    (hhi : i < start + rest.length) : ∃ l ∈ ls, l.checks = completedAt symbols qs i := by
  induction rest generalizing start ls with
  | nil =>
      rw [List.length_nil] at hhi
      omega
  | cons x rest ih =>
      simp only [levels] at h
      split at h
      · exact absurd h (by simp only [reduceCtorEq, not_false_eq_true])
      · rcases bind_eq_ok h with ⟨below, hbelow, hls⟩
        rw [← Except.ok.inj hls]
        by_cases hi : i = start
        · exact ⟨_, List.mem_cons_self, by rw [hi]⟩
        · rw [List.length_cons] at hhi
          rcases ih hbelow (by omega) (by omega) with ⟨l, hl, hchecks⟩
          exact ⟨l, List.mem_cons_of_mem _ hl, hchecks⟩

/-- Levels fail only for want of seeds. -/
theorem levels_error {limits : SearchLimits} {symbols : List PrimSymbol} {qs : List Question}
    {rest : List PrimSymbol} {start : Nat} {e : SearchError}
    (h : levels limits symbols qs start rest = .error e) : ∃ x ∈ rest, ∃ e',
      Seed.values x.type (qs.flatMap (·.condition.constants)) limits.maxCandidates = .error e' ∧
        e = .seeds e' := by
  induction rest generalizing start e with
  | nil => exact absurd h (by simp only [levels, reduceCtorEq, not_false_eq_true])
  | cons x rest ih =>
      simp only [levels] at h
      split at h
      · rename_i e' hseeds
        exact ⟨x, List.mem_cons_self, e', hseeds, (Except.error.inj h).symm⟩
      · cases hbelow : levels limits symbols qs (start + 1) rest with
        | error e' =>
            rw [hbelow] at h
            obtain ⟨y, hy, hspec⟩ := ih hbelow
            rw [← Except.error.inj h]
            exact ⟨y, List.mem_cons_of_mem _ hy, hspec⟩
        | ok ls =>
            rw [hbelow] at h
            exact absurd h (by simp only [bind, Except.bind, pure, Except.pure, reduceCtorEq,
              not_false_eq_true])

theorem plan_parts {limits : SearchLimits} {conditions : List (Option Term)} {ls : List Level}
    (h : plan limits conditions = .ok ls) :
    ∃ qs, questions 0 conditions = .ok qs ∧ decideClosed (order qs) qs = .ok () ∧
      levels limits (order qs) qs 0 (order qs) = .ok ls := by
  rcases bind_eq_ok h with ⟨qs, hqs, hrest⟩
  rcases bind_eq_ok hrest with ⟨_, hclosed, hlevels⟩
  exact ⟨qs, hqs, hclosed, hlevels⟩

/-- Whoever passes the checks of all levels of a plan makes all conditions
    true: a condition with symbols is checked at the place of its last one, and
    the others were decided beforehand. -/
theorem plan_complete {limits : SearchLimits} {conditions : List (Option Term)} {ls : List Level}
    (h : plan limits conditions = .ok ls) {m : Model}
    (hm : ∀ l ∈ ls, ∀ c ∈ l.checks, holds m c = .ok true) : m.Satisfies conditions := by
  rcases plan_parts h with ⟨qs, hqs, hclosed, hlevels⟩
  rcases questions_spec hqs with ⟨hconditions, hlisted⟩
  intro c hc
  rw [hconditions] at hc
  rcases List.mem_map.1 hc with ⟨q, hq, rfl⟩
  have hholds : holds m q.condition = .ok true := by
    cases hlast : lastPlace? (order qs) q with
    | none =>
        -- It was decided under the empty model, and fares alike under `m`.
        have hnone : q.condition.symbols = [] :=
          (hlisted q hq).trans (symbols_of_lastPlace_none hlast)
        rw [holds_congr fun x hx => absurd (hnone ▸ hx) List.not_mem_nil]
        exact decideClosed_ok hclosed q hq hlast
    | some i =>
        -- The level of its last symbol checks it.
        have hlt : i < (order qs).length := lastPlace_lt (fun x hx => exists_mem_order hq hx) hlast
        rcases levels_complete hlevels (Nat.zero_le i) (by omega) with ⟨l, hl, hchecks⟩
        refine hm l hl q.condition (hchecks ▸ List.mem_map_of_mem ?_)
        exact List.mem_filter.2 ⟨hq, beq_iff_eq.2 hlast⟩
  rcases eval_of_holds hholds with ⟨v, heval, hv⟩
  exact ⟨q.condition, v, rfl, heval, hv⟩

theorem plan_planned {limits : SearchLimits} {conditions : List (Option Term)} {ls : List Level}
    (h : plan limits conditions = .ok ls) : Planned [] ls := by
  rcases plan_parts h with ⟨qs, hqs, _, hlevels⟩
  exact levels_planned (questions_spec hqs).2 [] (order qs) ls rfl hlevels

/-- Only a condition without symbols that does not hold makes a plan fail by
    finding that there is no model. -/
theorem plan_unsatisfiable {limits : SearchLimits} {conditions : List (Option Term)}
    {e : SearchError} (h : plan limits conditions = .error e) (hkind : e.kind = .unsat) :
    ∃ c, some c ∈ conditions ∧ c.symbols = [] ∧ holds .empty c = .ok false := by
  unfold plan at h
  cases hqs : questions 0 conditions with
  | error e' =>
      rw [hqs] at h
      have he : e' = e := Except.error.inj h
      have hmalformed := isMalformed_of_questions_error hqs
      exact absurd (he ▸ hkind) (SearchError.kind_of_isMalformed hmalformed)
  | ok qs =>
      rw [hqs] at h
      simp only [bind, Except.bind] at h
      rcases questions_spec hqs with ⟨hconditions, hlisted⟩
      split at h
      · rename_i e' hclosed
        have he : e' = e := Except.error.inj h
        rcases decideClosed_error hclosed with htrial | ⟨q, hq, -, hlast, hfalse⟩
        · exact absurd (he ▸ hkind) (SearchError.kind_of_isTrial htrial)
        · refine ⟨q.condition, ?_, (hlisted q hq).trans (symbols_of_lastPlace_none hlast), hfalse⟩
          rw [hconditions]
          exact List.mem_map.2 ⟨q, hq, rfl⟩
      · rcases levels_error h with ⟨x, -, e', -, rfl⟩
        exact absurd hkind (by simp only [SearchError.kind, reduceCtorEq, not_false_eq_true])

/-- A model that is returned makes all conditions true. -/
theorem solve_found {limits : SearchLimits} {conditions : List (Option Term)} {m : Model}
    (h : solve limits conditions = .ok m) : m.Satisfies conditions := by
  rcases bind_eq_ok h with ⟨ls, hplan, hrest⟩
  split at hrest
  · rename_i m' hfound
    have hm : m' = m := Except.ok.inj hrest
    exact plan_complete hplan (hm ▸ (assign_found (plan_planned hplan) hfound).2)
  · exact absurd hrest (by simp only [reduceCtorEq, not_false_eq_true])
  · exact absurd hrest (by simp only [reduceCtorEq, not_false_eq_true])

/-- Conditions that are refused have no model. -/
theorem solve_unsatisfiable {limits : SearchLimits} {conditions : List (Option Term)}
    {e : SearchError} (h : solve limits conditions = .error e) (hkind : e.kind = .unsat)
    (m : Model) : ¬ m.Satisfies conditions := by
  unfold solve at h
  cases hplan : plan limits conditions with
  | error e' =>
      rw [hplan] at h
      have he : e' = e := Except.error.inj h
      rcases plan_unsatisfiable hplan (he ▸ hkind) with ⟨c, hc, hclosed, hfalse⟩
      intro hm
      rcases hm _ hc with ⟨t, v, hct, heval, hv⟩
      have hc' : c = t := Option.some.inj hct
      -- The condition has no symbols, so it fares alike under every model.
      refine not_eval_of_not_holds hfalse ⟨v, ?_, hv⟩
      rw [Model.eval_closed hclosed .empty m, hc', heval]
  | ok ls =>
      rw [hplan] at h
      simp only [bind, Except.bind] at h
      split at h
      · exact absurd h (by simp only [pure, Except.pure, reduceCtorEq, not_false_eq_true])
      · -- All values were tried in vain. That is an error of another kind, since
        -- the values are only some of those there are.
        rw [← Except.error.inj h] at hkind
        exact absurd hkind (by simp only [SearchError.kind, reduceCtorEq, not_false_eq_true])
      · rename_i e' hfailed
        have he : e' = e := Except.error.inj h
        exact absurd (he ▸ hkind) (SearchError.kind_of_isTrial (assign_failed hfailed))

end Search

namespace LocalSearch

/-- Every answer is right for the conditions it was asked for. -/
theorem solve_right (s : LocalSearch) (interruption : Option Interruption)
    (conditions : List (Option Term)) : Right conditions (s.solve interruption conditions).1 := by
  unfold solve
  cases h : Search.solve (s.limits interruption) conditions with
  | ok m => exact Search.solve_found h
  | error e =>
      intro hunsat
      exact Search.solve_unsatisfiable h (beq_iff_eq.1 hunsat)

/-- Whatever the settings and whenever the search is called off: a model that
    is returned makes every condition true, and conditions that are found to
    have no model have none, not even outside the values that are tried. -/
theorem solve_sound (s : LocalSearch) (interruption : Option Interruption)
    (conditions : List (Option Term)) :
    (∀ m, (s.solve interruption conditions).1 = .ok m →
      ∀ c ∈ conditions, ∃ t v, c = some t ∧ m.eval t = .ok v ∧ v.toBool = true) ∧
    ∀ e, (s.solve interruption conditions).1 = .error e → e.isUnsat = true →
      ¬ ∃ m : Model, ∀ c ∈ conditions, ∃ t v, c = some t ∧ m.eval t = .ok v ∧ v.toBool = true := by
  have hright := s.solve_right interruption conditions
  refine ⟨fun m h => ?_, fun e h hunsat => ?_⟩
  · rw [h] at hright
    exact hright
  · rw [h] at hright
    rintro ⟨m, hm⟩
    exact hright hunsat m hm

/-- Two flags of which the first is lowered and exactly one is raised get
    values, and a quotient by zero is no number. -/
theorem solve_sound_flags :
    (∀ c ∈ [some (Term.unary .not (.symbol ⟨0, .boolean, .ofRoot "a"⟩)),
        some (.binary (.connective .xor) (.symbol ⟨0, .boolean, .ofRoot "a"⟩)
          (.symbol ⟨1, .boolean, .ofRoot "b"⟩))],
      ∃ t v, c = some t ∧
        Model.eval ⟨[(0, .boolean false), (1, .boolean true)], by decide⟩ t = .ok v ∧
        v.toBool = true) ∧
    ¬ ∃ m : Model, ∀ c ∈ [some (Term.binary (.comparison .eq) (.const (.int 1))
        (.binary (.arithmetic .div) (.const (.int 1)) (.const (.int 0))))],
      ∃ t v, c = some t ∧ m.eval t = .ok v ∧ v.toBool = true :=
  ⟨(solve_sound (.ofSettings {}) none _).1 _ rfl, (solve_sound (.ofSettings {}) none _).2 _ rfl rfl⟩

end LocalSearch

end PathWitness
