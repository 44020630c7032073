import PathWitness.Proofs.Heap
import PathWitness.Proofs.Scenario.Forgiving
import PathWitness.Scenario.Run

/-!
# Paths that End Because of a Method

A path that applies a step to null ends with an exception, and a test is made that
expects it. Bodies of methods are made of steps too. Such a step has no path to end, so
its null dereference becomes the failure of the method, and the failure makes the step
of the script fail that fired the rule. An error keeps its kind on this way. The step of
the script is told of a null dereference, and takes it for its own.

So a method that applies a step to null ends the path under test with an exception, and
the script goes on with the other paths. If the step was to branch, the path ends in
place of all of its branches.

## Main definitions

* `Action.MeetsBreak`: A method fails with a null dereference in the course of an action.
* `Scenario.BodyFails`: A step in the body of a method fails with a null dereference.
* `Visits`: A script comes to a step on a path.

## Theorems

* `Scenario.bodyFails_of_invoker`: Where the null dereference of a method comes from.
* `Step.execute_null`: A path that applies a step to null.
* `Visits.mem_finals`: A path that has ended stays as it is.
* `broken_method_ends_path`: A method that applies a step to null ends the path.
-/

namespace PathWitness

variable {env : Environment Failure} {step : Step} {u v : Session} {j j' : Journal}

/-- In the course of an action a method fails with a null dereference: the action would
    go another way if methods were forgiven such failures. -/
def Action.MeetsBreak (env : Environment Failure) (a : Action) (u : Session) : Prop :=
  (a.advance env.forgiving).runOn u ≠ (a.advance env).runOn u

section Bodies

/-- The failure of a method is the null dereference of a step in its body. -/
inductive Scenario.BodyFails (s : Scenario) (classes : ClassTable) (rules : RuleTable) :
    Failure → Prop where
  | step {method : Signature} {body : List Step} {i n : Nat} {step : Step} {b : Binding}
    {e : StepError} {u v : Session} (hbody : s.triggers.lookup method.name = some body)
    (hstep : body[i]? = some step)
    (hrun : ((step.action.mapTexts b.apply).perform
      ⟨classes, rules, some (s.invoker classes rules n)⟩).runOn u = (.error e, v))
    (hkind : e.kind = .nullDereference) :
    BodyFails s classes rules (.ofFault (TriggerError.step method.name i e))

/-- A body fails with the first of its steps that fails. -/
theorem performBody_error {b : Binding} {name : String} {k : Nat} {body : List Step}
    {e : TriggerError} (h : (performBody env b name k body).runOn u = (.error e, v)) :
    ∃ i step e' w, body[i]? = some step ∧
      ((step.action.mapTexts b.apply).perform env).runOn w = (.error e', v) ∧
      e = .step name (k + i) e' := by
  induction body generalizing k u with
  | nil => cases h
  | cons first rest ih =>
      rw [performBody, TraceM.runOn_bind, TraceM.runOn_mapError] at h
      rcases hrun : ((first.action.mapTexts b.apply).perform env).runOn u with ⟨e' | _, w⟩
      · rw [hrun] at h
        obtain ⟨he, rfl⟩ := Prod.mk.inj h
        exact ⟨0, first, e', u, rfl, hrun, (Except.error.inj he).symm⟩
      · rw [hrun] at h
        obtain ⟨i, step, e', w', hstep, hfails, rfl⟩ := ih h
        refine ⟨i + 1, step, e', w', hstep, hfails, ?_⟩
        rw [Nat.add_right_comm, Nat.add_assoc]

theorem targetOrigin_kind {s : PathState} {target : Target} {e : TriggerError}
    (h : targetOrigin s target = .error e) : e.kind ≠ .nullDereference := by
  intro hkind
  unfold targetOrigin at h
  split at h
  · cases h
  · -- The target is an object. What can be missing is the clause that expanded it.
    split at h
    · rename_i error _
      obtain rfl := Except.error.inj h
      cases error <;> cases hkind
    · split at h
      · cases h
      · obtain rfl := Except.error.inj h
        cases hkind

/-- A method fails with a null dereference only if a step in its body does. -/
theorem Scenario.bodyFails_of_invoker (s : Scenario) (classes : ClassTable) (rules : RuleTable)
    {depth : Nat} {method : Signature} {target : Target} {parameter : String} {f : Failure}
    (h : (s.invoker classes rules depth method target parameter).runOn u = (.error f, v))
    (hkind : f.kind = .nullDereference) : s.BodyFails classes rules f := by
  unfold invoker at h
  rw [TraceM.runOn_mapError] at h
  cases hbody : s.triggers.lookup method.name with
  | none =>
      rw [hbody] at h
      obtain rfl := Except.error.inj (Prod.mk.inj h).1
      cases hkind
  | some body =>
      rw [hbody] at h
      cases depth with
      | zero =>
          obtain rfl := Except.error.inj (Prod.mk.inj h).1
          cases hkind
      | succ n =>
          simp only [TraceM.runOn_bind, TraceM.runOn_state, andThen_ok, TraceM.runOn_ofExcept] at h
          cases horigin : targetOrigin u.state target with
          | error e =>
              rw [horigin] at h
              obtain rfl := Except.error.inj (Prod.mk.inj h).1
              exact absurd hkind (targetOrigin_kind horigin)
          | ok origin =>
              have hok : Except.mapError id (.ok origin : Except TriggerError (Option String))
                  = .ok origin := rfl
              rw [horigin, hok, andThen_ok] at h
              rcases hrun : (performBody ⟨classes, rules, some (s.invoker classes rules n)⟩
                ⟨origin, parameter⟩ method.name 0 body).runOn u with ⟨e | _, w⟩
              · rw [hrun] at h
                obtain rfl := Except.error.inj (Prod.mk.inj h).1
                obtain ⟨i, step, e', w', hstep, hfails, rfl⟩ := performBody_error hrun
                rw [Nat.zero_add] at hkind ⊢
                exact .step hbody hstep hfails hkind
              · rw [hrun] at h
                cases (Prod.mk.inj h).1

end Bodies

section Ending

/-- An active path ends with the exception, and a test of it expects the exception. -/
theorem throwException_null {s : PathState} (h : s.status = .active) :
    ∃ target ended, s.throwException nullPointerException = .ok (target, ended) ∧
      ended.status = .frozen ∧ ended.condition = s.condition ∧
      TestCase.expectedException ended = .ok (some nullPointerException) := by
  have hthrowable : (Descriptor.isArray nullPointerException ||
      Descriptor.isPrimitive nullPointerException) = false := by decide +kernel
  have hclass : Descriptor.className nullPointerException = nullPointerException := by
    decide +kernel
  -- The exception is the object that was created last.
  have hobject : (s.heap.allocate ⟨nullPointerException, {}, none, []⟩).2.get?
      (s.heap.size + 1) = some ⟨nullPointerException, {}, none, []⟩ :=
    Heap.get?_allocate.2 (.inr ⟨rfl, rfl⟩)
  simp only [PathState.throwException, PathState.checkActive, h, hthrowable, hclass,
    PathState.freeze]
  refine ⟨_, _, rfl, rfl, rfl, ?_⟩
  have htarget : Target.ofPosition (s.heap.allocate ⟨nullPointerException, {}, none, []⟩).1
      = .object (s.heap.size + 1) := by
    refine Target.ofPosition_of_pos ?_
    change 1 ≤ (s.heap.size : Int) + 1
    omega
  simp only [TestCase.expectedException, htarget, Target.position, Heap.get, hobject]

/-- A path that applies a step to null ends where it is. -/
theorem Step.execute_null {e : StepError}
    (hrun : (step.action.advance env).runOn u = (.error e, v)) (hkind : e.kind = .nullDereference)
    (hactive : v.state.status = .active) :
    ∃ ended w, (step.execute env).runOn u = (.ok [ended], w) ∧ ended.status = .frozen ∧
      ended.condition = v.state.condition ∧
      TestCase.expectedException ended = .ok (some nullPointerException) := by
  obtain ⟨target, ended, hthrow, hended⟩ := throwException_null hactive
  refine ⟨ended, ⟨v.state, .excepted v.state.id e.message nullPointerException :: v.journal⟩, ?_,
    hended⟩
  unfold Step.execute
  rw [TraceM.runOn_tryCatch_error hrun, hkind, if_pos (by rfl)]
  simp only [TraceM.runOn_bind, TraceM.runOn_state, andThen_ok, TraceM.runOn_record,
    TraceM.runOn_ofExcept, hthrow]
  rfl

end Ending

section Scripts

/-- A script comes to a step on a path, after it has taken the paths before it through
    the step. -/
inductive Visits (env : Environment Failure) :
    List Step → List PathState → Journal → Step → Session → Prop where
  | here {step : Step} {rest : List Step} {before after next : List PathState} {s : PathState}
    {j j' : Journal} (hbefore : step.executeEach env before j = (.ok next, j'))
    (hactive : s.status = .active) :
    Visits env (step :: rest) (before ++ s :: after) j step ⟨s, j'⟩
  | later {step step' : Step} {rest : List Step} {paths paths' : List PathState} {j j' : Journal}
    {u : Session} (hround : step.executeEach env paths j = (.ok paths', j'))
    (h : Visits env rest paths' j' step' u) : Visits env (step :: rest) paths j step' u

variable {steps rest : List Step} {paths next finals : List PathState} {s : PathState}

theorem Visits.active (h : Visits env steps paths j step u) : u.state.status = .active := by
  induction h with
  | here _ hactive => exact hactive
  | later _ _ ih => exact ih

/-- A path that has ended stays in the next round. -/
theorem mem_executeEach (hs : s ∈ paths) (hended : s.status ≠ .active)
    (h : step.executeEach env paths j = (.ok next, j')) : s ∈ next := by
  induction paths generalizing j next with
  | nil => exact absurd hs List.not_mem_nil
  | cons t paths ih =>
      obtain ⟨first, j₁, others, rfl, hothers, hfirst⟩ := Step.executeEach_cons h
      rcases List.mem_cons.1 hs with rfl | hs
      · rcases hfirst with ⟨hactive, -⟩ | ⟨-, rfl, -⟩
        · exact absurd hactive hended
        · exact List.mem_append_left _ List.mem_cons_self
      · exact List.mem_append_right _ (ih hs hothers)

theorem mem_executeSteps {i : Nat} (hs : s ∈ paths) (hended : s.status ≠ .active)
    (h : executeSteps env i steps paths j = (.ok finals, j')) : s ∈ finals := by
  induction steps generalizing i paths j with
  | nil =>
      rw [← Except.ok.inj (Prod.mk.inj h).1]
      exact hs
  | cons step rest ih =>
      obtain ⟨next, j₁, hround, hrest⟩ := executeSteps_cons h
      exact ih (mem_executeEach hs hended hround) hrest

/-- What comes of a path is there after the round. -/
theorem subset_executeEach {before after ends all : List PathState} {j₁ j₂ : Journal}
    (hbefore : step.executeEach env before j = (.ok next, j₁)) (hactive : s.status = .active)
    (hexecute : (step.execute env).runOn ⟨s, j₁⟩ = (.ok ends, v))
    (h : step.executeEach env (before ++ s :: after) j = (.ok all, j₂)) : ends ⊆ all := by
  induction before generalizing j next all with
  | nil =>
      obtain ⟨-, rfl⟩ := Prod.mk.inj hbefore
      obtain ⟨first, _, others, rfl, -, ⟨-, _, hfirst, -⟩ | ⟨hended, -⟩⟩ := Step.executeEach_cons h
      · rw [hexecute] at hfirst
        rw [Except.ok.inj (Prod.mk.inj hfirst).1]
        exact List.subset_append_left _ _
      · exact absurd hactive hended
  | cons t before ih =>
      obtain ⟨first, j', others, rfl, hothers, hfirst⟩ := Step.executeEach_cons hbefore
      obtain ⟨first', j'', others', rfl, hothers', hfirst'⟩ := Step.executeEach_cons h
      -- Both rounds begin with the same paths, and so go on from the same journal.
      have hjournal : j' = j'' := by
        rcases hfirst with ⟨ht, w, hw, rfl⟩ | ⟨ht, -, rfl⟩
        · rcases hfirst' with ⟨-, w', hw', rfl⟩ | ⟨ht', -⟩
          · rw [(Prod.mk.inj (hw.symm.trans hw')).2]
          · exact absurd ht ht'
        · rcases hfirst' with ⟨ht', -⟩ | ⟨-, -, rfl⟩
          · exact absurd ht' ht
          · rfl
      rw [← hjournal] at hothers'
      exact List.subset_append_of_subset_right _ (ih hothers hothers')

/-- A path that ends at a step is among the last ones. -/
theorem Visits.mem_finals {i : Nat} {ended : PathState} (h : Visits env steps paths j step u)
    (hexecute : (step.execute env).runOn u = (.ok [ended], v)) (hended : ended.status ≠ .active)
    (hfinals : executeSteps env i steps paths j = (.ok finals, j')) : ended ∈ finals := by
  induction h generalizing i with
  | here hbefore hactive =>
      -- The path ends in this round, and the rounds after it pass it on.
      obtain ⟨next, j₁, hround, hrest⟩ := executeSteps_cons hfinals
      exact mem_executeSteps
        (subset_executeEach hbefore hactive hexecute hround List.mem_cons_self) hended hrest
  | later hround _ ih =>
      obtain ⟨next, j₁, hround', hrest⟩ := executeSteps_cons hfinals
      obtain ⟨hnext, rfl⟩ := Prod.mk.inj (hround.symm.trans hround')
      rw [← Except.ok.inj hnext] at hrest
      exact ih hexecute hrest

theorem executeSteps_of_execute {script : Script} {entry : PathState}
    (h : script.execute env entry j = (.ok finals, j')) :
    executeSteps env 0 script.steps [entry] j = (.ok finals, j') := by
  unfold Script.execute at h
  rcases hrun : executeSteps env 0 script.steps [entry] j with ⟨e | paths, j₁⟩
  · rw [hrun] at h
    cases (Prod.mk.inj h).1
  · rw [hrun] at h
    dsimp only at h
    split at h
    · cases (Prod.mk.inj h).1
    · exact h

end Scripts

/-- If a method fails with a null dereference in the course of a step, then so has a step
    in the body of the method, and the step of the script fails because of it. The path
    under test ends with an exception that its test expects. It does so in place of all
    of its branches, if it was to branch, and it is among the paths of the script. -/
theorem broken_method_ends_path {scenario : Scenario} {classes : ClassTable} {rules : RuleTable}
    {script : Script} {entry : PathState}
    (hvisits : Visits (scenario.environment classes rules) script.steps [entry] j step u)
    (hbreak : step.action.MeetsBreak (scenario.environment classes rules) u) :
    ∃ e f v ended w,
      (step.action.advance (scenario.environment classes rules)).runOn u = (.error e, v) ∧
      e.cause? = some f ∧ scenario.BodyFails classes rules f ∧
      (step.execute (scenario.environment classes rules)).runOn u = (.ok [ended], w) ∧
      TestCase.expectedException ended = .ok (some nullPointerException) ∧
      (∀ o notNull, step.action = .resolve o (.any notNull) →
        ended.condition = u.state.condition) ∧
      ∀ finals j', script.execute (scenario.environment classes rules) entry j = (.ok finals, j') →
        ended ∈ finals := by
  have hinvoke := scenario.environment_status classes rules
  obtain ⟨e, v, f, hrun, hcause, hkind⟩ := (step.action.advance_forgiving_ne_iff hinvoke).1 hbreak
  obtain ⟨hstatus, htracked⟩ := step.action.advance_tracks (u := u) hinvoke
  obtain ⟨invoke, method, target, parameter, w, w', hinvoker, hfails⟩ :=
    htracked.blame e v f hrun hcause
  rw [← Option.some.inj hinvoker] at hfails
  -- The step begins on an active path, and has not ended it where it fails.
  have hv : ((step.action.advance (scenario.environment classes rules)).runOn u).2 = v :=
    congrArg Prod.snd hrun
  have hactive : v.state.status = .active := by
    rw [← hvisits.active, ← hv]
    exact hstatus
  obtain ⟨ended, w, hexecute, hended, hcondition, hexpected⟩ :=
    Step.execute_null hrun ((e.kind_of_cause hcause).trans hkind) hactive
  refine ⟨e, f, v, ended, w, hrun, hcause, scenario.bodyFails_of_invoker classes rules hfails hkind,
    hexecute, hexpected, fun o notNull haction => ?_, fun finals j' hfinals => ?_⟩
  · rw [hcondition, ← hv, haction]
    exact (Action.split_onlyReads o notNull u).condition
  · refine hvisits.mem_finals hexecute ?_ (executeSteps_of_execute hfinals)
    rw [hended]
    decide

/-- The step that resolves an object in some manner. -/
def probeStep (manner : String) : Step := { resolve := "a", manner := manner }

/-- The object is resolved, and the method returns. -/
def probeScript (manner : String) : Script := ⟨"p", [probeStep manner, { result := "void" }], none⟩

/-- A method that is given an object. When the object is null, a rule runs a method that
    reads a field of it. -/
def probeScenario (manner : String) : Scenario where
  name := "npe"
  method := ⟨"pkg/M", "(Lpkg/A;)V", "run"⟩
  isStatic := true
  parameters := ["a"]
  classes := [⟨"pkg/A", "", false, [⟨"n", "I"⟩]⟩]
  rules := [⟨some .nulls, "a", "", ⟨"pkg/M", "()V", "t"⟩, ""⟩]
  triggers := [("t", [{ assume := "a.n == 0" }])]
  scripts := [probeScript manner]

/-- The classes of the scenario. -/
def probeClasses : ClassTable := ⟨[⟨"pkg/A", "java/lang/Object", false, [⟨"n", "I"⟩]⟩]⟩

/-- The object. -/
def probed : RefSymbol := ⟨0, "Lpkg/A;", .ofRoot "a"⟩

/-- The rules of the scenario. -/
def probeRules : RuleTable := ⟨[⟨0, .nulls, .ofRoot "a", "", ⟨"pkg/M", "()V", "t"⟩, ""⟩]⟩

/-- The state in which the script enters the method. -/
def probeEntry : PathState where
  id := ⟨".1", 0⟩
  signature := ⟨"pkg/M", "(Lpkg/A;)V", "run"⟩
  isStatic := true
  frame := [⟨0, "a", "Lpkg/A;", .ref probed⟩]
  symbols := ⟨[.ref probed]⟩

theorem ofList_probe (manner : String) :
    ClassTable.ofList (probeScenario manner).classes = .ok probeClasses := by
  change ClassTable.ofList (probeScenario "").classes = _
  decide +kernel

theorem rules_probe (manner : String) :
    RuleTable.ofList (probeScenario manner).rules = .ok probeRules := by
  change RuleTable.ofList (probeScenario "").rules = _
  decide +kernel

theorem entryState_probe (manner : String) :
    (probeScenario manner).entryState 0 = .ok probeEntry := by
  have hparameters : Descriptor.parameters "(Lpkg/A;)V" = .ok [.typed "Lpkg/A;"] := by cbv
  have hresult : Descriptor.result "(Lpkg/A;)V" = .ok "V" := by cbv
  have henter : PathState.enter (probeScenario manner).method (probeScenario manner).isStatic
      (probeScenario manner).parameters = .ok { probeEntry with id := {} } := by
    change PathState.enter ⟨"pkg/M", "(Lpkg/A;)V", "run"⟩ true ["a"] = _
    rw [PathState.enter, hparameters, hresult]
    rfl
  rw [Scenario.entryState, henter]
  rfl

/-- The object is to be null or new. The rule of the first case fails, and the path ends
    in place of both. -/
theorem broken_method_ends_path_probe :
    Visits ((probeScenario "any").environment probeClasses probeRules) (probeScript "any").steps
        [probeEntry] [] (probeStep "any") ⟨probeEntry, []⟩ ∧
      (probeStep "any").action.MeetsBreak
        ((probeScenario "any").environment probeClasses probeRules) ⟨probeEntry, []⟩ ∧
      ∃ ended w, ((probeStep "any").execute
          ((probeScenario "any").environment probeClasses probeRules)).runOn ⟨probeEntry, []⟩
          = (.ok [ended], w) ∧
        TestCase.expectedException ended = .ok (some nullPointerException) ∧
        ended.condition.clauses = [] := by
  have hvisits : Visits ((probeScenario "any").environment probeClasses probeRules)
      (probeScript "any").steps ([] ++ [probeEntry]) [] (probeStep "any") ⟨probeEntry, []⟩ :=
    .here rfl rfl
  have hbreak : (probeStep "any").action.MeetsBreak
      ((probeScenario "any").environment probeClasses probeRules) ⟨probeEntry, []⟩ := by
    intro heq
    have hok := congrArg (fun r => r.1.isOk) heq
    revert hok
    decide +kernel
  obtain ⟨e, f, v, ended, w, -, -, -, hexecute, hexpected, hcondition, -⟩ :=
    broken_method_ends_path hvisits hbreak
  refine ⟨hvisits, hbreak, ended, w, hexecute, hexpected, ?_⟩
  rw [hcondition "a" [] (by decide +kernel)]
  rfl

/-- The field of null is read in the body of a method, and the run is a success with one
    path, which ends with an exception. -/
theorem null_in_body_is_expected :
    ClassTable.ofList (probeScenario "null").classes = .ok probeClasses ∧
      RuleTable.ofList (probeScenario "null").rules = .ok probeRules ∧
      (probeScenario "null").entryState 0 = .ok probeEntry ∧
      (probeStep "null").action.MeetsBreak
        ((probeScenario "null").environment probeClasses probeRules) ⟨probeEntry, []⟩ ∧
      (((probeScenario "null").run [] false).runOn {}).1.toOption.map
          (·.map fun p => p.final.map fun s => (TestCase.expectedException s).toOption)
        = some [some (some (some nullPointerException))] := by
  refine ⟨ofList_probe _, rules_probe _, entryState_probe _, fun heq => ?_, ?_⟩
  · have hok := congrArg (fun r => r.1.isOk) heq
    revert hok
    decide +kernel
  · have hscripts : (probeScenario "null").scripts = [probeScript "null"] := rfl
    simp only [Scenario.run, ofList_probe, List.nil_append, rules_probe, hscripts,
      Scenario.runScripts, Scenario.runScript, entryState_probe]
    decide +kernel

end PathWitness
