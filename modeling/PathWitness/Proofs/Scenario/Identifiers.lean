import PathWitness.Proofs.Scenario.Exclusive
import PathWitness.Proofs.Scenario.Spared
import PathWitness.Proofs.Term.Reading
import PathWitness.Scenario.Run

/-!
# Identifiers of Paths

The identifier of a path is a text. A script starts with a dot and its own number, and
where a path branches into several, each of them adds a dot and its number among them. A
path that goes on alone keeps the text as it is. So the text of one path can be the start
of the text of another, and paths of one run differ because there is a first number in
which they differ, and this stays so whatever is added behind it.

The text is read back number by number. A number ends where the next dot is, since there
are no dots in numerals, and so `1` followed by `1` and the number `11` are told apart.

## Main definitions

* `branchText`: A dot and a number for each point of branching.
* `Continues`: An identifier to which numbers were added.
* `Apart`: Two identifiers with a first number in which they differ.

## Theorems

* `number_of_branchText`: The first number can be read off the text.
* `Apart.mono`, `Apart.ne`: Identifiers that are apart stay so, and are not equal.
* `successors_apart`: The successors of a path.
* `execute_splits`: A step of a script on one path.
* `finals_apart`: The final states of a script.
* `branches_unique`: The final states of a run.
-/

namespace PathWitness

variable {m n : Nat} {ms ns : List Nat} {s s' t t' : PathState}

/-- What points of branching add to the identifier of a path: a dot and a number for
    each. -/
def branchText (ns : List Nat) : String :=
  String.join (ns.map fun n => "." ++ toString n)

theorem branchText_append (ms ns : List Nat) :
    branchText (ms ++ ns) = branchText ms ++ branchText ns := by
  rw [branchText, List.map_append, String.join_append]
  rfl

theorem toList_branchText_cons (n : Nat) (ns : List Nat) :
    (branchText (n :: ns)).toList = '.' :: (Nat.toDigits 10 n ++ (branchText ns).toList) := by
  have hfirst : branchText [n] = "." ++ toString n := by simp [branchText]
  have hdigits : (toString n).toList = Nat.toDigits 10 n := by
    rw [Nat.toString_eq_ofList_toDigits, String.toList_ofList]
  rw [← List.singleton_append, branchText_append, hfirst, String.toList_append,
    String.toList_append, hdigits]
  rfl

/-- Numbers are followed by a dot or by nothing. -/
theorem head_branchText (ns : List Nat) :
    ∀ c ∈ (branchText ns).toList.head?, c.isDigit = false := by
  cases ns with
  | nil => simp [branchText]
  | cons n ns =>
      rw [toList_branchText_cons]
      simp

/-- The first number can be read off the text. -/
theorem number_of_branchText (h : branchText (m :: ms) = branchText (n :: ns)) : m = n := by
  have hlist := congrArg String.toList h
  rw [toList_branchText_cons, toList_branchText_cons] at hlist
  have hdigits := (List.cons.inj hlist).2
  exact (Reading.toDigits_split (head_branchText ms) (head_branchText ns) hdigits).1

/-- Numbers were added to the identifier of a path. -/
def Continues (s s' : PathState) : Prop :=
  ∃ ns, s'.id.branch = s.id.branch ++ branchText ns

/-- There is a first number in which the identifiers of two paths differ. -/
def Apart (s t : PathState) : Prop :=
  ∃ base m n ms ns, m ≠ n ∧ s.id.branch = base ++ branchText (m :: ms) ∧
    t.id.branch = base ++ branchText (n :: ns)

namespace Continues

theorem ofSameId (h : s'.id = s.id) : Continues s s' :=
  ⟨[], by rw [h]; simp [branchText]⟩

theorem trans (h : Continues s s') (h' : Continues s' t) : Continues s t := by
  obtain ⟨ns, hs'⟩ := h
  obtain ⟨ms, ht⟩ := h'
  exact ⟨ns ++ ms, by rw [ht, hs', branchText_append, String.append_assoc]⟩

end Continues

namespace Apart

/-- Numbers that are added come after the difference. -/
theorem mono (h : Apart s t) (hs : Continues s s') (ht : Continues t t') : Apart s' t' := by
  obtain ⟨base, m, n, ms, ns, hne, hsm, htn⟩ := h
  obtain ⟨more, hmore⟩ := hs
  obtain ⟨more', hmore'⟩ := ht
  refine ⟨base, m, n, ms ++ more, ns ++ more', hne, ?_, ?_⟩
  · rw [hmore, hsm, String.append_assoc, ← branchText_append, List.cons_append]
  · rw [hmore', htn, String.append_assoc, ← branchText_append, List.cons_append]

theorem ne (h : Apart s t) : s.id.branch ≠ t.id.branch := by
  obtain ⟨base, m, n, ms, ns, hne, hs, ht⟩ := h
  intro heq
  rw [hs, ht] at heq
  -- The common start is cancelled, and the first numbers behind it are read off.
  have hlist := congrArg String.toList heq
  rw [String.toList_append, String.toList_append] at hlist
  exact hne (number_of_branchText (String.toList_inj.1 (List.append_cancel_left hlist)))

end Apart

/-- The identifier of a path stays as it is. -/
def SameId (s s' : PathState) : Prop :=
  s'.id = s.id

/-- Nothing that is done on a path writes its identifier. -/
theorem SameId.spares : Spares SameId :=
  ⟨⟨fun _ => rfl, fun h h' => Eq.trans h' h⟩, fun _ _ _ _ _ => rfl⟩

theorem PathState.freeze_id (s : PathState) : s.freeze.id = s.id := by
  unfold freeze
  split <;> rfl

namespace Environment

variable {τ : Type} {env : Environment τ} {ref : RefSymbol} {cs : List Candidate}
  {next : List PathState} {j j' : Journal}

/-- Successors have ascending numbers, the first of which comes after the given index. -/
theorem successors_apart (hinvoke : env.InvokeObeys (Along SameId)) {i : Nat}
    (h : env.successors s ref true i cs j = (.ok next, j')) :
    next.Pairwise Apart ∧
      ∀ s' ∈ next, ∃ n, i < n ∧ s'.id.branch = s.id.branch ++ branchText [n] := by
  induction cs generalizing i j j' next with
  | nil =>
      rw [← Except.ok.inj (Prod.mk.inj h).1]
      exact ⟨List.Pairwise.nil, fun s' hs' => absurd hs' List.not_mem_nil⟩
  | cons c rest ih =>
      rw [successors_cons] at h
      obtain ⟨first, j₁, hfirst, h⟩ := andThen_eq_ok h
      obtain ⟨others, j₂, hothers, h⟩ := andThen_eq_ok h
      rw [← Except.ok.inj (Prod.mk.inj h).1]
      have hid : first.id.branch = s.id.branch ++ branchText [i + 1] := by
        rw [show first.id = _ from successor_spared SameId.spares hinvoke hfirst]
        simp [PathId.successor, branchText, String.append_assoc]
      obtain ⟨hpairwise, hnumbers⟩ := ih hothers
      refine ⟨List.pairwise_cons.2 ⟨fun t ht => ?_, hpairwise⟩, fun t ht => ?_⟩
      · -- All others have numbers that are greater.
        obtain ⟨n, hn, htn⟩ := hnumbers t ht
        exact ⟨s.id.branch, i + 1, n, [], [], by omega, hid, htn⟩
      · rcases List.mem_cons.1 ht with rfl | ht
        · exact ⟨i + 1, by omega, hid⟩
        · obtain ⟨n, hn, htn⟩ := hnumbers t ht
          exact ⟨n, by omega, htn⟩

/-- A path that branches into several adds a number to each, and one that does not is
    continued under the same identifier. -/
theorem branch_splits (hinvoke : env.InvokeObeys (Along SameId))
    (h : env.branch s ref cs j = (.ok next, j')) : Splits Continues Apart s next := by
  unfold branch at h
  split at h
  · cases (Prod.mk.inj h).1
  rename_i hsome
  by_cases hseveral : cs.length > 1
  · rw [decide_eq_true hseveral] at h
    obtain ⟨hpairwise, hnumbers⟩ := successors_apart hinvoke h
    refine ⟨fun s' hs' => ?_, hpairwise⟩
    obtain ⟨n, -, hn⟩ := hnumbers s' hs'
    exact ⟨[n], hn⟩
  · rw [decide_eq_false hseveral] at h
    -- There is exactly one way, so there is exactly one successor.
    obtain ⟨c, rfl⟩ : ∃ c, cs = [c] := by
      refine List.length_eq_one_iff.1 ?_
      have hpos : 0 < cs.length := List.length_pos_iff.2 fun hnil => hsome (by rw [hnil]; rfl)
      omega
    rw [successors_cons] at h
    obtain ⟨first, j₁, hfirst, h⟩ := andThen_eq_ok h
    rw [← Except.ok.inj (Prod.mk.inj h).1]
    refine .single ⟨[], ?_⟩
    rw [show first.id = _ from successor_spared SameId.spares hinvoke hfirst]
    simp [PathId.successor, branchText]

end Environment

section Steps

variable {env : Environment Failure} {j j' : Journal} {next finals : List PathState} {v : Session}

/-- An action of a script leaves the path its identifier, and branches of it continue
    it. -/
theorem Action.advance_splits (hinvoke : env.InvokeObeys (Along SameId)) (a : Action)
    (u : Session) :
    let r := (a.advance env).runOn u
    SameId u.state r.2.state ∧ ∀ next, r.1 = .ok next → Splits Continues Apart u.state next := by
  by_cases hany : ∃ o notNull, a = .resolve o (.any notNull)
  · obtain ⟨o, notNull, rfl⟩ := hany
    have hread : SameId u.state ((split env o notNull).runOn u).2.state :=
      split_spared SameId.spares o notNull u
    refine ⟨hread, fun next hok => ?_⟩
    -- The branches are made of the path as it is after the reference was read.
    obtain ⟨t, -, ht, hnext⟩ := split_follows (.underRules {} {} False) env o notNull u
    rw [ht] at hread
    rcases hnext next hok with rfl | ⟨ref, origins, cs, j, j', -, -, hbranch⟩
    · exact .none _
    · have hsplits := Environment.branch_splits hinvoke hbranch
      exact ⟨fun s' hs' => (Continues.ofSameId hread).trans (hsplits.goes s' hs'),
        hsplits.differ⟩
  · obtain ⟨hkept, hnext⟩ := advance_obeys SameId.spares.along
      (perform_spared SameId.spares hinvoke) (evaluate_spared SameId.spares)
      (fun u x s hs => by
        obtain ⟨_, -, hs⟩ := bind_eq_ok hs
        rw [← Except.ok.inj hs]
        exact PathState.freeze_id _)
      (fun u type target s hs => by
        rw [PathState.throwException_eq_ok hs]
        exact PathState.freeze_id _)
      a (fun o notNull heq => hany ⟨o, notNull, heq⟩) u
    refine ⟨hkept, fun next hok => ?_⟩
    obtain ⟨s', rfl, hs'⟩ := hnext next hok
    exact .single (.ofSameId hs')

/-- A step of a script on one path. -/
theorem Step.execute_splits (hinvoke : env.InvokeObeys (Along SameId)) (step : Step)
    (h : (step.execute env).runOn ⟨s, j⟩ = (.ok next, v)) : Splits Continues Apart s next := by
  obtain ⟨hkept, hnext⟩ := step.action.advance_splits hinvoke ⟨s, j⟩
  rcases Step.execute_ok h with hadvance | ⟨e, w, target, t, hadvance, hthrow, rfl⟩
  · rw [hadvance] at hnext
    exact hnext next rfl
  · rw [hadvance] at hkept
    refine .single (.ofSameId (Eq.trans ?_ hkept))
    rw [PathState.throwException_eq_ok hthrow]
    exact PathState.freeze_id _

/-- The final states of a script. -/
theorem Script.finals_apart (hinvoke : env.InvokeObeys (Along SameId)) {script : Script}
    {entry : PathState} (h : script.execute env entry j = (.ok finals, j')) :
    finals.Pairwise Apart ∧ ∀ s ∈ finals, Continues entry s := by
  obtain ⟨hpairwise, hcontinues⟩ := executeSteps_splits (G := Continues) (D := Apart)
    (fun _ _ _ h h' => h.trans h') (fun _ _ _ _ h hs ht => h.mono hs ht)
    (fun _ _ => .ofSameId rfl) (fun _ _ _ _ => trivial)
    (fun step _ _ _ _ _ hexecute => step.execute_splits hinvoke hexecute)
    (P := fun _ => True) (fun _ _ => trivial) (List.pairwise_singleton _ _)
    (Script.execute_ok h)
  refine ⟨hpairwise, fun s hs => ?_⟩
  obtain ⟨t, ht, hts⟩ := hcontinues s hs
  rwa [← List.mem_singleton.1 ht]

end Steps

namespace RunM

variable {ε ε' α β : Type} {r r' : RunState}

/-- What goes on has not failed before. -/
theorem bind_ok {m : RunM ε α} {f : α → RunM ε β} {b : β}
    (h : RunM.runOn (m >>= f) r = (.ok b, r')) :
    ∃ a r₁, m.runOn r = (.ok a, r₁) ∧ (f a).runOn r₁ = (.ok b, r') :=
  andThen_eq_ok ((run_bind m f r).symm.trans h)

theorem mapError_ok {inject : ε' → ε} {m : RunM ε' α} {a : α}
    (h : (RunM.mapError inject m).runOn r = (.ok a, r')) : m.runOn r = (.ok a, r') := by
  unfold RunM.mapError runOn ExceptT.run ExceptT.mk StateT.run at h
  unfold runOn ExceptT.run StateT.run
  rcases hrun : (m r : Except ε' α × RunState) with ⟨e | b, r₁⟩
  all_goals
    simp only [hrun] at h
    cases h
  rfl

theorem onJournal_ok {inject : ε' → ε} {f : Journal → Except ε' α × Journal} {a : α}
    (h : (RunM.onJournal inject f).runOn r = (.ok a, r')) : ∃ j, f r.journal = (.ok a, j) := by
  unfold onJournal at h
  obtain ⟨v, r₁, hget, h⟩ := bind_ok h
  obtain ⟨hv, rfl⟩ := Prod.mk.inj hget
  obtain rfl := Except.ok.inj hv
  rcases hf : f r.journal with ⟨e | b, j⟩
  · rw [hf] at h
    cases (Prod.mk.inj h).1
  · rw [hf] at h
    exact ⟨j, by rw [← Except.ok.inj (Prod.mk.inj h).1]⟩

end RunM

section Runs

variable {r r' : RunState} {paths : List TestCase.FinishedPath} {finals : List PathState}

/-- A path without a solution is dropped, and any other ends with the state that it was
    finished for. -/
theorem Script.finish_ok {script : Script} {canceled : Bool} {entry : PathState}
    {path : Option TestCase.FinishedPath}
    (h : (script.finish canceled entry s).runOn r = (.ok path, r')) :
    path = none ∨ ∃ m, path = some ⟨entry, s, m⟩ := by
  unfold Script.finish RunM.runOn at h
  rw [run_tryCatch, run_bind] at h
  rcases hassign : (StateT.run (ExceptT.run (script.assign canceled s)) r :
    Except AssignError (Option Model) × RunState) with ⟨e | m, r₁⟩
  · rw [hassign] at h
    dsimp only [andThen_error] at h
    split at h
    · exact .inl (Except.ok.inj (Prod.mk.inj h).1).symm
    · exact .inr ⟨none, (Except.ok.inj (Prod.mk.inj h).1).symm⟩
    · cases (Prod.mk.inj h).1
  · rw [hassign] at h
    exact .inr ⟨m, (Except.ok.inj (Prod.mk.inj h).1).symm⟩

/-- Finishing states one after the other keeps their order. -/
theorem Script.mapM_finish_ok {script : Script} {canceled : Bool} {entry : PathState}
    {outcomes : List (Option TestCase.FinishedPath)}
    (h : RunM.runOn (finals.mapM fun final =>
      (script.finish canceled entry final).mapError ScriptFailure.assign) r = (.ok outcomes, r')) :
    ∃ kept : List PathState, kept.Sublist finals ∧
      (outcomes.filterMap id).map TestCase.FinishedPath.final = kept.map some := by
  induction finals generalizing r r' outcomes with
  | nil =>
      rw [← Except.ok.inj (Prod.mk.inj h).1]
      exact ⟨[], .slnil, rfl⟩
  | cons s rest ih =>
      rw [List.mapM_cons] at h
      obtain ⟨path, r₁, hfirst, h⟩ := RunM.bind_ok h
      obtain ⟨others, r₂, hothers, h⟩ := RunM.bind_ok h
      rw [← Except.ok.inj (Prod.mk.inj h).1]
      obtain ⟨kept, hkept, hfinals⟩ := ih hothers
      rcases Script.finish_ok (RunM.mapError_ok hfirst) with rfl | ⟨m, rfl⟩
      · exact ⟨kept, hkept.cons s, hfinals⟩
      · exact ⟨s :: kept, hkept.cons_cons s, congrArg (some s :: ·) hfinals⟩

namespace Scenario

variable {scenario : Scenario} {env : Environment Failure} {canceled : Bool} {index : Nat}

theorem entryState_branch {entry : PathState} (h : scenario.entryState index = .ok entry) :
    entry.id.branch = branchText [index + 1] := by
  unfold entryState at h
  split at h
  · cases h
  · rw [← Except.ok.inj h]
    simp [PathState.withId, branchText]

/-- The finished paths of a script end in states that are apart, and whose identifiers start
    with the number of the script. -/
theorem runScript_apart (hinvoke : env.InvokeObeys (Along SameId)) {script : Script}
    (h : (scenario.runScript env canceled index script).runOn r = (.ok paths, r')) :
    ∃ finals : List PathState, paths.map TestCase.FinishedPath.final = finals.map some ∧
      finals.Pairwise Apart ∧
      ∀ s ∈ finals, ∃ ns, s.id.branch = branchText ((index + 1) :: ns) := by
  unfold runScript at h
  cases hentry : scenario.entryState index with
  | error e =>
      rw [hentry] at h
      cases (Prod.mk.inj h).1
  | ok entry =>
      rw [hentry] at h
      obtain ⟨states, r₁, hstates, h⟩ := RunM.bind_ok h
      obtain ⟨outcomes, r₂, hfinished, h⟩ := RunM.bind_ok h
      rw [← Except.ok.inj (Prod.mk.inj h).1]
      obtain ⟨j, hexecute⟩ := RunM.onJournal_ok hstates
      obtain ⟨hapart, hcontinues⟩ := Script.finals_apart hinvoke hexecute
      -- Of the states that the script leads to, those without a solution are dropped.
      obtain ⟨kept, hkept, hfinals⟩ := Script.mapM_finish_ok hfinished
      refine ⟨kept, hfinals, hapart.sublist hkept, fun s hs => ?_⟩
      obtain ⟨ns, hns⟩ := hcontinues s (hkept.subset hs)
      exact ⟨ns, by rw [hns, entryState_branch hentry, ← branchText_append]; rfl⟩

/-- Scripts have ascending numbers, so paths of different scripts differ in the first
    number already. -/
theorem runScripts_apart (hinvoke : env.InvokeObeys (Along SameId)) {scripts : List Script}
    (h : (scenario.runScripts env canceled index scripts).runOn r = (.ok paths, r')) :
    ∃ finals : List PathState, paths.map TestCase.FinishedPath.final = finals.map some ∧
      finals.Pairwise Apart ∧
      ∀ s ∈ finals, ∃ n ns, index < n ∧ s.id.branch = branchText (n :: ns) := by
  induction scripts generalizing index r r' paths with
  | nil =>
      rw [← Except.ok.inj (Prod.mk.inj h).1]
      exact ⟨[], rfl, List.Pairwise.nil, fun s hs => absurd hs List.not_mem_nil⟩
  | cons script rest ih =>
      unfold runScripts at h
      cases canceled with
      | true => cases (Prod.mk.inj h).1
      | false =>
          obtain ⟨first, r₁, hfirst, h⟩ := RunM.bind_ok h
          obtain ⟨others, r₂, hothers, h⟩ := RunM.bind_ok h
          rw [← Except.ok.inj (Prod.mk.inj h).1]
          obtain ⟨finals, hfinals, hapart, hnumber⟩ :=
            runScript_apart hinvoke (RunM.mapError_ok hfirst)
          obtain ⟨finals', hfinals', hapart', hnumbers⟩ := ih hothers
          refine ⟨finals ++ finals', by rw [List.map_append, List.map_append, hfinals, hfinals'],
            List.pairwise_append.2 ⟨hapart, hapart', fun s hs t ht => ?_⟩, fun s hs => ?_⟩
          · obtain ⟨ns, hns⟩ := hnumber s hs
            obtain ⟨n, ns', hn, hns'⟩ := hnumbers t ht
            exact ⟨"", index + 1, n, ns, ns', by omega, by rw [hns, String.empty_append],
              by rw [hns', String.empty_append]⟩
          · rcases List.mem_append.1 hs with hs | hs
            · obtain ⟨ns, hns⟩ := hnumber s hs
              exact ⟨index + 1, ns, by omega, hns⟩
            · obtain ⟨n, ns, hn, hns⟩ := hnumbers s hs
              exact ⟨n, ns, by omega, hns⟩

/-- Every path of a run has a final state, and no two of them have the same identifier of a
    branch: there is a first number in which they differ. -/
theorem branches_unique {extra : List RuleSpec}
    (h : (scenario.run extra canceled).runOn r = (.ok paths, r')) :
    ∃ finals : List PathState, paths.map TestCase.FinishedPath.final = finals.map some ∧
      finals.Pairwise Apart ∧ (finals.map fun s => s.id.branch).Nodup := by
  unfold run at h
  cases hclasses : ClassTable.ofList scenario.classes with
  | error e =>
      rw [hclasses] at h
      cases (Prod.mk.inj h).1
  | ok classes =>
      rw [hclasses] at h
      cases hrules : RuleTable.ofList (extra ++ scenario.rules) with
      | error e =>
          rw [hrules] at h
          cases (Prod.mk.inj h).1
      | ok rules =>
          rw [hrules] at h
          obtain ⟨produced, r₁, hscripts, h⟩ := RunM.bind_ok h
          rw [← Except.ok.inj (Prod.mk.inj h).1]
          obtain ⟨finals, hfinals, hapart, -⟩ := runScripts_apart
            (scenario.environment_spared SameId.spares classes rules) hscripts
          refine ⟨finals, hfinals, hapart, List.nodup_iff_pairwise_ne.2 (List.pairwise_map.2 ?_)⟩
          exact hapart.imp fun hst => hst.ne

end Scenario

end Runs

/-- Two scripts that branch twice each. -/
def twiceScenario : Scenario :=
  { branchingScenario with scripts := [branchingScript, branchingScript] }

/-- The scripts do the same, and their paths are told apart by the first number. -/
theorem branches_unique_twice :
    ∃ paths r', (twiceScenario.run [] false).runOn {} = (.ok paths, r') ∧ paths.length = 18 ∧
      ∃ finals : List PathState, paths.map TestCase.FinishedPath.final = finals.map some ∧
        finals.Pairwise Apart ∧ (finals.map fun s => s.id.branch).Nodup := by
  have hcount : ((twiceScenario.run [] false).runOn {}).1.toOption.map List.length = some 18 := by
    decide +kernel
  rcases hrun : (twiceScenario.run [] false).runOn {} with ⟨e | paths, r'⟩
  · rw [hrun] at hcount
    exact absurd hcount (by simp [Except.toOption])
  · rw [hrun] at hcount
    exact ⟨paths, r', rfl, Option.some.inj hcount, Scenario.branches_unique hrun⟩

end PathWitness
