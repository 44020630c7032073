import PathWitness.Proofs.Search.Soundness
import PathWitness.Proofs.Term.WellTyped

/-!
# Searching is Trying Everything

The search gives values to one symbol after the other and goes back as soon as a
condition fails. The plain way is to write down all assignments, those that agree
longest with the first values first, and to take the first under which all
conditions are true. Both come to the same end.

Going back early loses nothing because of the layout of the levels: a condition
is checked when its symbols have values, and no level below gives one of them
another value. So a condition that fails at a level fails under every assignment
below it. And nothing but a division by zero can keep a condition from having a
value at that point, which counts as false either way.

The limit on steps does not change where a search is going. `ending` says what
becomes of a search that would come to some end after some number of steps when
there is a limit. The number does not depend on the limit, and `nodes` bounds it.

## Main definitions

* `Term.ApplyFree`: No named function is applied.
* `Model.makesTrue`: A condition evaluates to true.
* `Search.completions`: All assignments, in lexicographic order.
* `Search.exhaustive`: The first of all assignments that makes all conditions
  true.
* `Search.nodes`: How many values there are to try in all.
* `Search.ending`: A search under a limit.

## Theorems

* `ApplyFree.eval_valued`: What has values for its symbols has a value, or divides
  by zero.
* `tryValues_ending`, `assign_ending`: The search comes to the end of the
  enumeration, unless the limit is met first.
* `firstOccurrences_flatMap`: Symbols can be collected condition by condition.
* `solve_ending`: The same for a whole search.
* `LocalSearch.solve_exhaustive`: The search is exhaustive, and the limit only
  cuts it short.
-/

namespace PathWitness

namespace Term

/-- No named function is applied anywhere in the term. -/
def ApplyFree : Term → Prop
  | .unary _ arg => arg.ApplyFree
  | .binary _ left right => left.ApplyFree ∧ right.ApplyFree
  | .convert _ _ arg => arg.ApplyFree
  | .apply _ _ _ => False
  | _ => True

theorem symbols_eq_nil_iff {t : Term} : t.symbols = [] ↔ t.occurrences = [] := by
  unfold Term.symbols
  cases t.occurrences <;> simp [firstOccurrences]

/-- A condition whose truth can be decided once its symbols have values. -/
structure Testable (t : Term) : Prop where
  wellTyped : t.WellTyped
  applyFree : t.ApplyFree
  boolean : t.type = .boolean

variable {ε : Type} {source : PrimSymbol → Except ε Const}

-- Operators fail in other ways.
theorem operation_ne_notEvaluable {t s : Term} (r : Except OperationError Const) :
    r.mapError (EvalError.ofOperation (ε := ε) t) ≠ .error (.notEvaluable s) := by
  cases r with
  | ok c => simp [Except.mapError]
  | error e => cases e <;> simp [Except.mapError, EvalError.ofOperation]

/-- An evaluation that meets a named function is one of a term that has one. -/
theorem not_applyFree_of_eval : ∀ (t : Term) {s : Term},
    t.eval source = .error (.notEvaluable s) → ¬ t.ApplyFree
  | .const c, s, h => by simp [eval] at h
  | .symbol x, s, h => by
      simp only [eval] at h
      split at h <;> simp at h
  | .unary op arg, s, h => by
      intro hfree
      simp only [eval, bind, Except.bind] at h
      cases harg : arg.eval source with
      | error e =>
          rw [harg] at h
          exact not_applyFree_of_eval arg (harg.trans h) hfree
      | ok c =>
          rw [harg] at h
          exact absurd h (operation_ne_notEvaluable _)
  | .binary op left right, s, h => by
      intro hfree
      simp only [eval, bind, Except.bind] at h
      cases hleft : left.eval source with
      | error e =>
          rw [hleft] at h
          exact not_applyFree_of_eval left (hleft.trans h) hfree.1
      | ok a =>
          cases hright : right.eval source with
          | error e =>
              rw [hleft, hright] at h
              exact not_applyFree_of_eval right (hright.trans h) hfree.2
          | ok b =>
              rw [hleft, hright] at h
              exact absurd h (operation_ne_notEvaluable _)
  | .convert _ dest arg, s, h => by
      intro hfree
      simp only [eval, bind, Except.bind, pure, Except.pure] at h
      cases harg : arg.eval source with
      | error e =>
          rw [harg] at h
          exact not_applyFree_of_eval arg (harg.trans h) hfree
      | ok c =>
          rw [harg] at h
          simp at h
  | .apply _ _ _, _, _ => fun hfree => hfree

/-- Where the symbols of a term have values, the term has a value of its type, or
    an integer is divided by zero. -/
theorem ApplyFree.eval_valued {t : Term} (hfree : t.ApplyFree) (htyped : t.WellTyped)
    (hvalues : ∀ x ∈ t.occurrences, ∃ c, source x = .ok c) :
    (∃ c, t.eval source = .ok c ∧ c.type = t.type) ∨
      ∃ s, t.eval source = .error (.divisionByZero s) := by
  rcases htyped.eval_valued hvalues with hvalue | hzero | ⟨s, hs⟩
  · exact .inl hvalue
  · exact .inr hzero
  · exact absurd hfree (not_applyFree_of_eval t hs)

end Term

/-- The condition evaluates to true. Where it has no value, it does not. -/
def Model.makesTrue (m : Model) (c : Term) : Bool :=
  match m.eval c with
  | .ok (.boolean b) => b
  | _ => false

/-- Goes on with another search where one was in vain. -/
def Outcome.orElse : Outcome → (Nat → Outcome) → Outcome
  | .exhausted steps, next => next steps
  | outcome, _ => outcome

namespace Search

variable {m m' : Model} {c : Term}

theorem makesTrue_congr (hm : ∀ x ∈ c.symbols, m.get? x.number = m'.get? x.number) :
    m.makesTrue c = m'.makesTrue c := by
  unfold Model.makesTrue
  rw [Model.eval_congr hm]

theorem makesTrue_eq_of_eval {v : Const} (heval : m.eval c = .ok v) (hv : v.type = .boolean) :
    m.makesTrue c = v.toBool := by
  unfold Model.makesTrue
  rw [heval]
  cases v <;> simp [Const.type] at hv
  rename_i b
  cases b <;> rfl

/-- The search finds out whether a condition is true, as soon as its symbols have
    values. -/
theorem holds_eq_makesTrue (hc : c.Testable)
    (hm : ∀ x ∈ c.symbols, ∃ v, m.get? x.number = some v) :
    holds m c = .ok (m.makesTrue c) := by
  have hvalues : ∀ x ∈ c.occurrences, ∃ v, m.lookup x = .ok v := by
    intro x hx
    -- The model is asked for a number, which the first occurrence has too.
    rcases exists_mem_firstOccurrences hx with ⟨y, hy, hyx⟩
    rcases hm y hy with ⟨v, hv⟩
    rw [hyx] at hv
    exact ⟨v, by rw [Model.lookup, hv]⟩
  rcases hc.applyFree.eval_valued hc.wellTyped hvalues with ⟨v, heval, hv⟩ | ⟨s, heval⟩
  · have heval' : m.eval c = .ok v := heval
    rw [makesTrue_eq_of_eval heval' (hv.trans hc.boolean), holds, heval']
  · have heval' : m.eval c = .error (.divisionByZero s) := heval
    simp only [holds, Model.makesTrue, heval']

theorem makesTrue_iff_holds (hc : c.Testable) : m.makesTrue c = true ↔ holds m c = .ok true := by
  rcases hc.wellTyped.eval_cases m.lookup with ⟨v, heval, hv⟩ | ⟨e, heval, -⟩
  · have heval' : m.eval c = .ok v := heval
    rw [makesTrue_eq_of_eval heval' (hv.trans hc.boolean), holds, heval']
    simp
  · have heval' : m.eval c = .error e := heval
    simp only [Model.makesTrue, heval', Bool.false_eq_true, false_iff]
    intro htrue
    rcases eval_of_holds htrue with ⟨v, hv, -⟩
    rw [heval'] at hv
    cases hv

theorem allHold_eq_all {cs : List Term} (hcs : ∀ c ∈ cs, holds m c = .ok (m.makesTrue c)) :
    allHold m cs = .ok (cs.all m.makesTrue) := by
  induction cs with
  | nil => rfl
  | cons c rest ih =>
      have hc := hcs c List.mem_cons_self
      have hrest := ih fun d hd => hcs d (List.mem_cons_of_mem c hd)
      simp only [allHold, hc, bind, Except.bind, hrest, List.all_cons]
      cases m.makesTrue c <;> rfl

/-! ### Enumeration -/

/-- All models that extend a model by a value for each symbol. Models that agree on
    the first symbols stand together, in the order of the values of the next. -/
def completions : List (PrimSymbol × List Const) → Model → List Model
  | [], m => [m]
  | (x, values) :: rest, m => values.flatMap fun v => completions rest (m.set x v)

/-- The symbols of a list of conditions, in the order of first occurrence. -/
def mentioned (conditions : List Term) : List PrimSymbol :=
  firstOccurrences (conditions.flatMap Term.occurrences)

/-- The seeds of a type; there are none below a negative limit. -/
def seeds (limit : Int) (constants : List Const) (p : Prim) : List Const :=
  (Seed.values p constants limit).toOption.getD []

/-- The symbols of a list of conditions with the values to try for each. -/
def choices (limit : Int) (conditions : List Term) : List (PrimSymbol × List Const) :=
  (mentioned conditions).map fun x =>
    (x, seeds limit (conditions.flatMap Term.constants) x.type)

/-- The first of all assignments that makes all conditions true, without going
    back early. Only a condition without symbols shows that there is none. -/
def exhaustive (limit : Int) (conditions : List Term) : Except SearchError Model :=
  match conditions.find? fun c => c.occurrences.isEmpty && !Model.empty.makesTrue c with
  | some c => .error (.unsatisfiable c)
  | none =>
    match (completions (choices limit conditions) .empty).find?
        fun m => conditions.all m.makesTrue with
    | some m => .ok m
    | none => .error (.noModel (mentioned conditions).length)

/-- How many values there are to try, if no condition ever fails before the
    last. -/
def nodes : List (PrimSymbol × List Const) → Nat
  | [] => 0
  | (_, values) :: rest => values.length * (1 + nodes rest)

/-- The other symbols keep the values they have. -/
theorem get?_of_mem_completions {cs : List (PrimSymbol × List Const)} {n : Nat}
    (hn : ∀ c ∈ cs, c.1.number ≠ n) (h : m' ∈ completions cs m) : m'.get? n = m.get? n := by
  induction cs generalizing m with
  | nil => rw [List.mem_singleton.1 h]
  | cons c rest ih =>
      rcases List.mem_flatMap.1 h with ⟨v, -, hv⟩
      rw [ih (fun d hd => hn d (List.mem_cons_of_mem c hd)) hv]
      exact Model.get?_set_other m c.1 v fun heq => hn c List.mem_cons_self heq.symm

/-! ### A search under a limit -/

/-- What becomes of a search that would come to its end after so many more steps,
    if only the given number of steps may be taken. -/
def ending (limit : Int) (steps more : Nat) (found : Option Model) : Outcome :=
  if 0 < more ∧ limit < steps + more then .failed (.budget limit)
  else
    match found with
    | some m => .found m
    | none => .exhausted (steps + more)

/-- A search that is not called off comes to an end after a number of steps,
    whatever the limit. -/
def EndsWithin (bound : Nat) (found : Option Model) (search : SearchLimits → Nat → Outcome) :
    Prop :=
  ∃ more ≤ bound, ∀ limits : SearchLimits, limits.interruption = none → ∀ steps,
    search limits steps = ending limits.maxSteps steps more found

theorem stepFault?_uninterrupted {limits : SearchLimits} (h : limits.interruption = none)
    (step : Nat) : stepFault? limits step =
      if limits.maxSteps < step then some (.budget limits.maxSteps) else none := by
  unfold stepFault? interruptionAt?
  rw [h]
  simp

/-- A step before a search is one step more. -/
theorem ending_succ (limit : Int) (steps more : Nat) (found : Option Model) :
    (if limit < (steps + 1 : Nat) then .failed (.budget limit)
      else ending limit (steps + 1) more found) = ending limit steps (more + 1) found := by
  unfold ending
  by_cases hstep : limit < (steps + 1 : Nat)
  · rw [if_pos hstep, if_pos (by omega)]
  · rw [if_neg hstep]
    by_cases hmore : 0 < more ∧ limit < ((steps + 1 : Nat) : Int) + more
    · rw [if_pos hmore, if_pos (by omega)]
    · rw [if_neg hmore, if_neg (by omega), Nat.add_right_comm, Nat.add_assoc]

/-- A search that finds a model is over. -/
theorem ending_orElse_some (limit : Int) (steps k : Nat) (found : Model) (next : Nat → Outcome) :
    (ending limit steps k (some found)).orElse next = ending limit steps k (some found) := by
  unfold ending
  split <;> rfl

/-- After a search that finds nothing comes another, with the steps that are
    left. -/
theorem ending_orElse_none {limit : Int} {steps k k' : Nat} {found : Option Model}
    {next : Nat → Outcome} (hnext : ∀ n, next n = ending limit n k' found) :
    (ending limit steps k none).orElse next = ending limit steps (k + k') found := by
  unfold ending at hnext ⊢
  by_cases hfirst : 0 < k ∧ limit < (steps : Int) + k
  · rw [if_pos hfirst, if_pos (by omega)]
    rfl
  · rw [if_neg hfirst, Outcome.orElse, hnext]
    by_cases hsecond : 0 < k' ∧ limit < ((steps + k : Nat) : Int) + k'
    · rw [if_pos hsecond, if_pos (by omega)]
    · rw [if_neg hsecond, if_neg (by omega), Nat.add_assoc]

/-- One value is tried, and the others if that was in vain. -/
theorem tryValues_cons {limits : SearchLimits} (h : limits.interruption = none) {x : PrimSymbol}
    {checks : List Term} {next : Model → Nat → Outcome} {v : Const} {rest : List Const} {b : Bool}
    (hchecks : allHold (m.set x v) checks = .ok b) (steps : Nat) :
    tryValues limits x checks next m (v :: rest) steps =
      if limits.maxSteps < (steps + 1 : Nat) then .failed (.budget limits.maxSteps)
      else Outcome.orElse (if b then next (m.set x v) (steps + 1) else .exhausted (steps + 1))
        (tryValues limits x checks next m rest) := by
  unfold tryValues
  simp only [stepFault?_uninterrupted h]
  by_cases hstep : limits.maxSteps < (steps + 1 : Nat)
  · simp only [if_pos hstep]
  · simp only [if_neg hstep, hchecks]
    cases b with
    | false => rfl
    | true =>
        rw [if_pos rfl]
        cases next (m.set x v) (steps + 1) <;> rfl

/-- If the search below each value comes to an end, so does the search over all
    values: at the first value that passes the checks and below which a model is
    found. -/
theorem tryValues_ending {x : PrimSymbol} {checks : List Term} {values : List Const}
    (next : SearchLimits → Model → Nat → Outcome) {below : Const → Option Model} {bound : Nat}
    (hchecks : ∀ v ∈ values,
      allHold (m.set x v) checks = .ok (checks.all (m.set x v).makesTrue))
    (hnext : ∀ v ∈ values, EndsWithin bound (below v) fun limits => next limits (m.set x v)) :
    EndsWithin (values.length * (1 + bound))
      (values.findSome? fun v => if checks.all (m.set x v).makesTrue then below v else none)
      fun limits => tryValues limits x checks (next limits) m values := by
  induction values with
  | nil =>
      refine ⟨0, Nat.zero_le _, fun limits _ steps => ?_⟩
      simp [tryValues, ending]
  | cons v rest ih =>
      rcases ih (fun w hw => hchecks w (List.mem_cons_of_mem v hw))
        (fun w hw => hnext w (List.mem_cons_of_mem v hw)) with ⟨k', hk', hrest⟩
      rcases hnext v List.mem_cons_self with ⟨k, hk, hbelow⟩
      dsimp only at hbelow
      have hv := hchecks v List.mem_cons_self
      have hbound : (v :: rest).length * (1 + bound) = rest.length * (1 + bound) + (1 + bound) := by
        rw [List.length_cons, Nat.succ_mul]
      rw [List.findSome?_cons, hbound]
      cases hpass : checks.all (m.set x v).makesTrue with
      | false =>
          -- The value is dropped at once, after the one step it took.
          refine ⟨k' + 1, by omega, fun limits hlimits steps => ?_⟩
          have hstop :
              Outcome.exhausted (steps + 1) = ending limits.maxSteps (steps + 1) 0 none := by
            simp [ending]
          rw [hpass] at hv
          dsimp only
          rw [tryValues_cons hlimits hv, if_neg Bool.false_ne_true, hstop,
            ending_orElse_none fun n => hrest limits hlimits n, Nat.zero_add, ending_succ]
          rfl
      | true =>
          rw [hpass] at hv
          cases hfound : below v with
          | none =>
              refine ⟨k + k' + 1, by omega, fun limits hlimits steps => ?_⟩
              dsimp only
              rw [tryValues_cons hlimits hv, if_pos rfl, hbelow limits hlimits, hfound,
                ending_orElse_none fun n => hrest limits hlimits n, ending_succ]
              rfl
          | some found =>
              refine ⟨k + 1, by omega, fun limits hlimits steps => ?_⟩
              dsimp only
              rw [tryValues_cons hlimits hv, if_pos rfl, hbelow limits hlimits, hfound,
                ending_orElse_some, ending_succ]
              rfl

/-- The first member with a property depends on which members have it. -/
theorem find?_congr {α : Type} {p q : α → Bool} {l : List α} (h : ∀ a ∈ l, p a = q a) :
    l.find? p = l.find? q := by
  induction l with
  | nil => rfl
  | cons a rest ih =>
      rw [List.find?_cons, List.find?_cons, h a List.mem_cons_self,
        ih fun b hb => h b (List.mem_cons_of_mem a hb)]

/-- A level is about a number that has no value before. -/
theorem Planned.fresh {done : List Nat} {ls : List Level} (h : Planned done ls) :
    ∀ l ∈ ls, l.symbol.number ∉ done := by
  induction ls generalizing done with
  | nil => intro l hl; exact absurd hl List.not_mem_nil
  | cons a rest ih =>
      intro l hl
      rcases List.mem_cons.1 hl with rfl | hl
      · exact h.1
      · intro hdone
        exact ih h.2.2 l hl (List.mem_append_left _ hdone)

/-- The symbol of a level with the values to try. -/
def choice (l : Level) : PrimSymbol × List Const :=
  (l.symbol, l.values)

/-- The checks of all levels succeed. -/
def passes (ls : List Level) (m : Model) : Bool :=
  ls.all fun l => l.checks.all m.makesTrue

/-- The enumeration can be cut where a check fails: whatever is completed from there
    fails the check too, because the levels below leave alone what it depends on. -/
theorem find?_completions_cons {l : Level} {rest : List Level} {done : List Nat}
    (hchecks : ∀ c ∈ l.checks, ∀ x ∈ c.symbols, x.number ∈ done)
    (hfresh : ∀ l' ∈ rest, l'.symbol.number ∉ done) :
    (completions ((l :: rest).map choice) m).find? (passes (l :: rest))
      = l.values.findSome? fun v => if l.checks.all (m.set l.symbol v).makesTrue then
          (completions (rest.map choice) (m.set l.symbol v)).find? (passes rest) else none := by
  rw [List.map_cons, choice, completions, List.find?_flatMap]
  congr 1
  funext v
  have hsame : ∀ m' ∈ completions (rest.map choice) (m.set l.symbol v),
      l.checks.all m'.makesTrue = l.checks.all (m.set l.symbol v).makesTrue := by
    intro m' hm'
    rw [Bool.eq_iff_iff, List.all_eq_true, List.all_eq_true]
    refine forall₂_congr fun c hc => ?_
    rw [makesTrue_congr fun x hx => get?_of_mem_completions ?_ hm']
    intro d hd heq
    rcases List.mem_map.1 hd with ⟨l', hl', rfl⟩
    exact hfresh l' hl' (heq ▸ hchecks c hc x hx)
  by_cases hpass : l.checks.all (m.set l.symbol v).makesTrue = true
  · rw [if_pos hpass]
    refine find?_congr fun m' hm' => ?_
    rw [passes, List.all_cons, hsame m' hm', hpass, Bool.true_and, passes]
  · rw [if_neg hpass, List.find?_eq_none]
    intro m' hm' htrue
    rw [passes, List.all_cons, hsame m' hm', Bool.and_eq_true] at htrue
    exact hpass htrue.1

/-- The search comes to the first of all completions that passes the checks of all
    levels. The induction is on the levels, and the numbers that have values grow
    with it. -/
theorem assign_ending {ls : List Level} {done : List Nat} (hplan : Planned done ls)
    (htest : ∀ l ∈ ls, ∀ c ∈ l.checks, c.Testable)
    (hdone : ∀ n ∈ done, ∃ v, m.get? n = some v) :
    EndsWithin (nodes (ls.map choice)) ((completions (ls.map choice) m).find? (passes ls))
      fun limits => assign limits ls m := by
  induction ls generalizing done m with
  | nil =>
      refine ⟨0, Nat.zero_le _, fun limits _ steps => ?_⟩
      simp [assign, ending, completions, passes]
  | cons l rest ih =>
      rcases hplan with ⟨hfresh, hchecks, hrest⟩
      have hset : ∀ v, ∀ n ∈ done ++ [l.symbol.number],
          ∃ w, (m.set l.symbol v).get? n = some w := by
        intro v n hn
        by_cases hself : n = l.symbol.number
        · rw [hself]
          exact ⟨_, Model.get?_set_self m l.symbol v⟩
        · rw [Model.get?_set_other m l.symbol v hself]
          rcases List.mem_append.1 hn with hn | hn
          · exact hdone n hn
          · exact absurd (List.mem_singleton.1 hn) hself
      -- The symbols of a check have values by now, so the check has an answer.
      have hall : ∀ v ∈ l.values, allHold (m.set l.symbol v) l.checks
          = .ok (l.checks.all (m.set l.symbol v).makesTrue) := by
        intro v _
        refine allHold_eq_all fun c hc => ?_
        exact holds_eq_makesTrue (htest l List.mem_cons_self c hc) fun x hx =>
          hset v _ (hchecks c hc x hx)
      rw [find?_completions_cons hchecks hrest.fresh]
      exact tryValues_ending (fun limits => assign limits rest) hall fun v _ =>
        ih hrest (fun l' hl' => htest l' (List.mem_cons_of_mem l hl')) (hset v)

/-! ### The levels of a list of conditions -/

/-- Symbols of two lists are collected from one after the other. -/
theorem firstOccurrences_append (a b : List PrimSymbol) :
    firstOccurrences (a ++ b) = firstOccurrences a ++
      (firstOccurrences b).filter fun x => a.all (·.number != x.number) := by
  induction a with
  | nil => exact (List.filter_eq_self.2 fun _ _ => rfl).symm
  | cons s rest ih =>
      rw [List.cons_append, firstOccurrences, ih, List.filter_append, List.filter_filter,
        firstOccurrences, List.cons_append]
      congr 3
      funext x
      rw [List.all_cons, bne_comm, Bool.and_comm]

/-- What is collected already is not collected again. -/
theorem firstOccurrences_of_pairwise {l : List PrimSymbol}
    (h : l.Pairwise (·.number ≠ ·.number)) : firstOccurrences l = l := by
  induction l with
  | nil => rfl
  | cons s rest ih =>
      rcases List.pairwise_cons.1 h with ⟨hs, hrest⟩
      rw [firstOccurrences, ih hrest, List.filter_eq_self.2]
      intro x hx
      exact bne_iff_ne.2 (hs x hx).symm

/-- Symbols can be collected from each of many lists before they are collected
    from all. -/
theorem firstOccurrences_flatMap {α : Type} (f : α → List PrimSymbol) (l : List α) :
    firstOccurrences (l.flatMap fun a => firstOccurrences (f a))
      = firstOccurrences (l.flatMap f) := by
  induction l with
  | nil => rfl
  | cons a rest ih =>
      rw [List.flatMap_cons, List.flatMap_cons, firstOccurrences_append, firstOccurrences_append,
        ih, firstOccurrences_of_pairwise (pairwise_firstOccurrences (f a))]
      congr 2
      funext x
      -- A number that occurs is collected, and the other way round.
      rw [Bool.eq_iff_iff, List.all_eq_true, List.all_eq_true]
      constructor
      · intro h y hy
        rcases exists_mem_firstOccurrences hy with ⟨z, hz, hzy⟩
        rw [← hzy]
        exact h z hz
      · intro h y hy
        exact h y (mem_of_mem_firstOccurrences hy)

/-- A condition with its symbols. -/
def ask (c : Term) : Question :=
  ⟨c, c.symbols⟩

theorem questions_eq {cs : List Term} (hcs : ∀ c ∈ cs, c.Testable) (i : Nat) :
    questions i (cs.map some) = .ok (cs.map ask) := by
  induction cs generalizing i with
  | nil => rfl
  | cons c rest ih =>
      have hc := hcs c List.mem_cons_self
      have hrest := ih (fun d hd => hcs d (List.mem_cons_of_mem c hd)) (i + 1)
      simp only [List.map_cons, questions, hc.boolean, if_true, hrest, bind, Except.bind, pure,
        Except.pure, ask]

theorem order_ask (cs : List Term) : order (cs.map ask) = mentioned cs := by
  unfold order mentioned
  rw [List.flatMap_map]
  exact firstOccurrences_flatMap Term.occurrences cs

theorem lastPlace?_ask {c : Term} (symbols : List PrimSymbol) :
    lastPlace? symbols (ask c) = none ↔ c.occurrences = [] := by
  rw [lastPlace?, ask, List.max?_eq_none_iff, List.map_eq_nil_iff, Term.symbols_eq_nil_iff]

/-- The conditions without symbols are decided in the order in which they stand. -/
theorem decideClosed_ask (symbols : List PrimSymbol) {cs : List Term}
    (hcs : ∀ c ∈ cs, c.Testable) :
    decideClosed symbols (cs.map ask) =
      (cs.find? fun c => c.occurrences.isEmpty && !Model.empty.makesTrue c).elim (.ok ())
        fun c => .error (.unsatisfiable c) := by
  induction cs with
  | nil => rfl
  | cons c rest ih =>
      have hc := hcs c List.mem_cons_self
      have hrest := ih fun d hd => hcs d (List.mem_cons_of_mem c hd)
      rw [List.map_cons, decideClosed, hrest, List.find?_cons]
      by_cases hnone : c.occurrences = []
      · have hholds : holds .empty c = .ok (Model.empty.makesTrue c) := by
          refine holds_eq_makesTrue hc fun x hx => ?_
          rw [Term.symbols_eq_nil_iff.2 hnone] at hx
          exact absurd hx List.not_mem_nil
        simp only [(lastPlace?_ask symbols).2 hnone]
        simp only [ask, hholds, bind, Except.bind, hnone, List.isEmpty_nil, Bool.true_and]
        cases Model.empty.makesTrue c <;> rfl
      · -- A condition with symbols is left to the levels.
        have hsome : lastPlace? symbols (ask c) ≠ none := fun h => hnone ((lastPlace?_ask _).1 h)
        rcases Option.ne_none_iff_exists'.1 hsome with ⟨i, hi⟩
        simp only [hi, List.isEmpty_eq_false_iff.2 hnone, Bool.false_and]

theorem values_eq_seeds {limit : Int} (hlimit : 0 ≤ limit) (constants : List Const) (p : Prim) :
    Seed.values p constants limit = .ok (seeds limit constants p) := by
  have hneg : ¬ limit < 0 := by omega
  unfold seeds Seed.values
  simp only [if_neg hneg]
  split
  · rfl
  · split <;> rfl

/-- The level of a symbol, which stands at a place in the order of assignment. -/
def level (limit : Int) (cs : List Term) (x : PrimSymbol × Nat) : Level :=
  ⟨x.1, seeds limit (cs.flatMap Term.constants) x.1.type,
    completedAt (mentioned cs) (cs.map ask) x.2⟩

theorem levels_eq {limits : SearchLimits} (hlimit : 0 ≤ limits.maxCandidates) (cs : List Term)
    (rest : List PrimSymbol) (i : Nat) :
    levels limits (mentioned cs) (cs.map ask) i rest
      = .ok ((rest.zipIdx i).map (level limits.maxCandidates cs)) := by
  have hconstants : (cs.map ask).flatMap (·.condition.constants) = cs.flatMap Term.constants := by
    rw [List.flatMap_map]
    rfl
  induction rest generalizing i with
  | nil => rfl
  | cons x rest ih =>
      simp only [levels, hconstants, values_eq_seeds hlimit, ih, bind, Except.bind, pure,
        Except.pure, List.zipIdx_cons, List.map_cons, level]

/-- The levels of a list of conditions. -/
def layout (limit : Int) (cs : List Term) : List Level :=
  (mentioned cs).zipIdx.map (level limit cs)

theorem map_choice_layout (limit : Int) (cs : List Term) :
    (layout limit cs).map choice = choices limit cs := by
  have hfst : choice ∘ level limit cs =
      (fun x => (x, seeds limit (cs.flatMap Term.constants) x.type)) ∘ Prod.fst := rfl
  rw [layout, List.map_map, hfst, ← List.map_map, List.zipIdx_map_fst, choices]

theorem mem_of_mem_checks {limit : Int} {cs : List Term} {l : Level} (hl : l ∈ layout limit cs)
    {c : Term} (hc : c ∈ l.checks) : c ∈ cs := by
  rcases List.mem_map.1 hl with ⟨x, -, rfl⟩
  rcases List.mem_map.1 hc with ⟨q, hq, rfl⟩
  rcases List.mem_map.1 (List.mem_filter.1 hq).1 with ⟨d, hd, rfl⟩
  exact hd

/-- A plan is made, unless a condition without symbols is not true. -/
theorem plan_eq {limits : SearchLimits} (hlimit : 0 ≤ limits.maxCandidates) {cs : List Term}
    (hcs : ∀ c ∈ cs, c.Testable) : plan limits (cs.map some) =
      (cs.find? fun c => c.occurrences.isEmpty && !Model.empty.makesTrue c).elim
        (.ok (layout limits.maxCandidates cs)) fun c => .error (.unsatisfiable c) := by
  unfold plan
  simp only [questions_eq hcs, order_ask, decideClosed_ask _ hcs, levels_eq hlimit, bind,
    Except.bind]
  cases cs.find? fun c => c.occurrences.isEmpty && !Model.empty.makesTrue c <;> rfl

/-- Whoever passes the checks of all levels makes all conditions true, and the other
    way round. -/
theorem passes_layout {limits : SearchLimits} {cs : List Term} (hcs : ∀ c ∈ cs, c.Testable)
    (hplan : plan limits (cs.map some) = .ok (layout limits.maxCandidates cs)) (m : Model) :
    passes (layout limits.maxCandidates cs) m = cs.all m.makesTrue := by
  unfold passes
  rw [Bool.eq_iff_iff, List.all_eq_true, List.all_eq_true]
  constructor
  · intro hpass c hc
    have hsatisfies : m.Satisfies (cs.map some) := by
      refine plan_complete hplan fun l hl d hd => ?_
      exact (makesTrue_iff_holds (hcs d (mem_of_mem_checks hl hd))).1
        (List.all_eq_true.1 (hpass l hl) d hd)
    rcases hsatisfies (some c) (List.mem_map_of_mem hc) with ⟨t, v, ht, heval, hv⟩
    rw [← Option.some.inj ht] at heval
    exact (makesTrue_iff_holds (hcs c hc)).2 (by simp only [holds, heval, hv])
  · intro hall l hl
    rw [List.all_eq_true]
    exact fun c hc => hall c (mem_of_mem_checks hl hc)

/-- A search that is not called off comes to the end of the enumeration, unless the
    limit on steps is met first. -/
theorem solve_ending {limit : Int} (hlimit : 0 ≤ limit) {cs : List Term}
    (hcs : ∀ c ∈ cs, c.Testable) :
    ∃ more ≤ nodes (choices limit cs), ∀ limits : SearchLimits, limits.maxCandidates = limit →
      limits.interruption = none → solve limits (cs.map some) =
        if 0 < more ∧ limits.maxSteps < more then .error (.budget limits.maxSteps)
        else exhaustive limit cs := by
  cases hclosed : cs.find? fun c => c.occurrences.isEmpty && !Model.empty.makesTrue c with
  | some c =>
      -- No step is taken.
      refine ⟨0, Nat.zero_le _, fun limits hcandidates _ => ?_⟩
      subst hcandidates
      simp [solve, plan_eq hlimit hcs, exhaustive, hclosed, bind, Except.bind]
  | none =>
      have hplan : ∀ limits : SearchLimits, limits.maxCandidates = limit →
          plan limits (cs.map some) = .ok (layout limits.maxCandidates cs) := by
        intro limits hcandidates
        subst hcandidates
        rw [plan_eq hlimit hcs, hclosed]
        rfl
      have hplan₀ := hplan ⟨limit, 0, none⟩ rfl
      rcases assign_ending (m := .empty) (plan_planned hplan₀)
        (fun l hl c hc => hcs c (mem_of_mem_checks hl hc))
        (fun n hn => absurd hn List.not_mem_nil) with ⟨more, hmore, hassign⟩
      rw [map_choice_layout] at hmore hassign
      refine ⟨more, hmore, fun limits hcandidates hlimits => ?_⟩
      have hrun := hassign limits hlimits 0
      rw [funext (passes_layout hcs hplan₀)] at hrun
      have hplan' := hplan limits hcandidates
      rw [hcandidates] at hplan'
      dsimp only at hrun
      simp only [solve, hplan', bind, Except.bind, hrun, ending, exhaustive, hclosed, Nat.zero_add,
        Int.natCast_zero, Int.zero_add]
      by_cases hbudget : 0 < more ∧ limits.maxSteps < more
      · simp only [if_pos hbudget]
      · simp only [if_neg hbudget]
        cases (completions (choices limit cs) .empty).find? fun m => cs.all m.makesTrue with
        | some m => rfl
        | none => simp only [layout, List.length_map, List.length_zipIdx]

/-- The enumeration takes no steps, so it has no limit to meet. -/
theorem exhaustive_ne_budget (limit steps : Int) (cs : List Term) :
    exhaustive limit cs ≠ .error (.budget steps) := by
  unfold exhaustive
  split
  · simp
  · split <;> simp

end Search

namespace LocalSearch

/-- The answer of a search that is not called off. -/
def answer (s : LocalSearch) (conditions : List Term) : Except SolveError Model :=
  (s.solve none (conditions.map some)).1

/-- The search with another limit on steps. -/
def withMaxSteps (s : LocalSearch) (steps : Int) : LocalSearch :=
  { s with settings := { s.settings with maxSteps := steps } }

/-- A search that is not called off comes to the end of the enumeration after a number
    of steps that does not depend on the limit, unless the limit is met first. -/
theorem answer_ending (s : LocalSearch) {conditions : List Term}
    (hcandidates : 0 ≤ s.settings.maxCandidates) (hconditions : ∀ c ∈ conditions, c.Testable) :
    ∃ more ≤ Search.nodes (Search.choices s.settings.maxCandidates conditions), ∀ steps,
      (s.withMaxSteps steps).answer conditions =
        if 0 < more ∧ steps < more then .error (.search (.budget steps))
        else (Search.exhaustive s.settings.maxCandidates conditions).mapError .search := by
  rcases Search.solve_ending hcandidates hconditions with ⟨more, hmore, hsolve⟩
  refine ⟨more, hmore, fun steps => ?_⟩
  have hrun := hsolve ((s.withMaxSteps steps).limits none) rfl rfl
  simp only [answer, solve]
  rw [hrun]
  exact apply_ite (Except.mapError SolveError.search) _ _ _

/-- A step for every value there is to try is enough. -/
theorem answer_eq_exhaustive {s : LocalSearch} {conditions : List Term}
    (hcandidates : 0 ≤ s.settings.maxCandidates) (hconditions : ∀ c ∈ conditions, c.Testable)
    (hsteps : Search.nodes (Search.choices s.settings.maxCandidates conditions)
      ≤ s.settings.maxSteps) : s.answer conditions
        = (Search.exhaustive s.settings.maxCandidates conditions).mapError .search := by
  rcases s.answer_ending hcandidates hconditions with ⟨more, hmore, hanswer⟩
  have hself : s.answer conditions = _ := hanswer s.settings.maxSteps
  rw [hself, if_neg (by omega)]

theorem mapError_exhaustive_ne_budget (limit steps : Int) (conditions : List Term) :
    (Search.exhaustive limit conditions).mapError SolveError.search
      ≠ .error (.search (.budget steps)) := by
  intro heq
  cases hplain : Search.exhaustive limit conditions with
  | ok m => simp [hplain, Except.mapError] at heq
  | error e =>
      rw [hplain] at heq
      have he : e = .budget steps := SolveError.search.inj (Except.error.inj heq)
      exact Search.exhaustive_ne_budget _ _ _ (he ▸ hplain)

/-- A search that is not called off either breaks off at its limit on steps or gives
    the answer of the plain enumeration. In the second case a higher limit does not
    change the answer, and that is the case if there is a step for every value there
    is to try. -/
theorem solve_exhaustive (s : LocalSearch) {conditions : List Term}
    (hcandidates : 1 ≤ s.settings.maxCandidates)
    (hconditions : ∀ c ∈ conditions, c.Built ∧ c.ApplyFree ∧ c.type = .boolean) :
    (s.answer conditions = .error (.search (.budget s.settings.maxSteps)) ∨
      s.answer conditions
        = (Search.exhaustive s.settings.maxCandidates conditions).mapError .search) ∧
    (s.answer conditions ≠ .error (.search (.budget s.settings.maxSteps)) →
      ∀ steps ≥ s.settings.maxSteps,
        (s.withMaxSteps steps).answer conditions = s.answer conditions) ∧
    (Search.nodes (Search.choices s.settings.maxCandidates conditions) ≤ s.settings.maxSteps →
      s.answer conditions ≠ .error (.search (.budget s.settings.maxSteps))) := by
  have hpositive : 0 ≤ s.settings.maxCandidates := by omega
  have htest : ∀ c ∈ conditions, c.Testable := by
    intro c hc
    rcases hconditions c hc with ⟨hbuilt, hfree, hboolean⟩
    exact ⟨hbuilt.wellTyped, hfree, hboolean⟩
  rcases s.answer_ending hpositive htest with ⟨more, -, hanswer⟩
  have hself : s.answer conditions = _ := hanswer s.settings.maxSteps
  refine ⟨?_, ?_, ?_⟩
  · rw [hself]
    split
    · exact .inl rfl
    · exact .inr rfl
  · intro hne steps hsteps
    -- The limit has not been met, so neither is a higher one.
    have hbudget : ¬ (0 < more ∧ s.settings.maxSteps < more) := by
      intro hmet
      rw [if_pos hmet] at hself
      exact hne hself
    rw [hself, if_neg hbudget, hanswer steps, if_neg (by omega)]
  · intro henough
    rw [answer_eq_exhaustive hpositive htest henough]
    exact mapError_exhaustive_ne_budget _ _ _

/-- A flag is raised, and a number is contained in one. -/
def flaggedQuotient : List Term :=
  [.symbol ⟨0, .boolean, .ofRoot "b"⟩,
    .binary (.comparison .gt)
      (.binary (.arithmetic .div) (.const (.int 1)) (.symbol ⟨1, .int, .ofRoot "x"⟩))
      (.const (.int 0))]

theorem flaggedQuotient_testable :
    ∀ c ∈ flaggedQuotient, c.Built ∧ c.ApplyFree ∧ c.type = .boolean := by
  intro c hc
  rcases List.mem_cons.1 hc with rfl | hc
  · exact ⟨.symbol _, trivial, rfl⟩
  · rw [List.mem_singleton.1 hc]
    exact ⟨.of_binary (.of_binary (.const _) (.symbol _) rfl) (.const _) rfl,
      ⟨⟨trivial, trivial⟩, trivial⟩, rfl⟩

theorem choices_flaggedQuotient : Search.choices 16 flaggedQuotient =
    [(⟨0, .boolean, .ofRoot "b"⟩, [.boolean false, .boolean true]),
      (⟨1, .int, .ofRoot "x"⟩, [.int 0, .int 1, .int (-1), .int 2])] := by
  have hmentioned : Search.mentioned flaggedQuotient
      = [⟨0, .boolean, .ofRoot "b"⟩, ⟨1, .int, .ofRoot "x"⟩] := by decide
  have hdistinct : Seed.distinct (· == ·) (([0, 1, -1] ++
      (flaggedQuotient.flatMap Term.constants).flatMap fun c : Const =>
        Seed.neighbours c.toInt64.toInt).filter (Seed.fits .int)) = [0, 1, -1, 2] := by decide
  -- The seeds are in order already, so sorting leaves them as they are.
  have hintegers : Seed.integers .int (flaggedQuotient.flatMap Term.constants) = [0, 1, -1, 2] := by
    unfold Seed.integers
    dsimp only
    rw [hdistinct]
    exact List.mergeSort_of_pairwise (by decide)
  simp only [Search.choices, hmentioned, List.map_cons, List.map_nil, Search.seeds, Seed.values]
  rw [hintegers]
  rfl

/-- There are ten values to try, counting those below each other. With as many steps or
    more the answer is the second number: zero divides nothing. -/
theorem solve_exhaustive_quotient :
    (∀ c ∈ flaggedQuotient, c.Built ∧ c.ApplyFree ∧ c.type = .boolean) ∧
    Search.nodes (Search.choices 16 flaggedQuotient) = 10 ∧
    ∀ steps ≥ 10, ((ofSettings { maxSteps := 10 }).withMaxSteps steps).answer flaggedQuotient
      = .ok ⟨[(0, .boolean true), (1, .int 1)], by decide⟩ := by
  have hnodes : Search.nodes (Search.choices 16 flaggedQuotient) = 10 := by
    rw [choices_flaggedQuotient]
    rfl
  have hplain : Search.exhaustive 16 flaggedQuotient
      = .ok ⟨[(0, .boolean true), (1, .int 1)], by decide⟩ := by
    unfold Search.exhaustive
    rw [choices_flaggedQuotient]
    rfl
  rcases solve_exhaustive (ofSettings { maxSteps := 10 }) (by decide) flaggedQuotient_testable with
    ⟨hanswer, hmore, henough⟩
  have hfound : (ofSettings { maxSteps := 10 }).answer flaggedQuotient
      ≠ .error (.search (.budget 10)) := by
    refine henough (Int.le_of_eq ?_)
    exact congrArg Int.ofNat hnodes
  refine ⟨flaggedQuotient_testable, hnodes, fun steps hsteps => ?_⟩
  rw [hmore hfound steps hsteps, hanswer.resolve_left hfound]
  exact congrArg (Except.mapError SolveError.search) hplain

end LocalSearch

end PathWitness
