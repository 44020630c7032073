import PathWitness.Proofs.ClassTable
import PathWitness.Proofs.Scenario.Steps

/-!
# The Paths of a Script Exclude Each Other

A script makes several paths out of one where it resolves a reference to
everything it can be. From there on the paths have a clause that resolves the
same reference in different ways, and what comes before that clause they share.
Clauses are only added, so this stays so, whatever steps and rules come next:
no two paths of a script can be taken together, and none is produced twice.

The reference is resolved before anything else happens on a successor, so the
clause is the first new one there. The ways in which a reference can be resolved
are told apart by what they resolve it to: positions on a heap are distinct, and
so are the names of declared classes.

## Main definitions

* `Resolution.Excludes`: Two resolutions of a reference that cannot both be.
* `Exclusive`: Two states with different resolutions at the first difference.
* `Branches`: What a step makes of a path.

## Theorems

* `candidates_pairwise`: The ways to resolve a reference exclude each other.
* `successors_branch`: So do the successors of a path.
* `execute_branches`: A step of a script on one path.
* `executeSteps_exclusive`: All steps, on all paths.
* `finals_exclusive`: The final states of a script.
-/

namespace PathWitness

/-- Two resolutions of a reference that cannot both be. -/
def Resolution.Excludes : Resolution → Resolution → Prop
  | null, null => False
  | aliasOf p, aliasOf q => p ≠ q
  | fresh _ c, fresh _ d => c ≠ d
  | _, _ => True

theorem Resolution.Excludes.ne {how how' : Resolution} (h : how.Excludes how') : how ≠ how' := by
  rintro rfl
  cases how with
  | null => exact h
  | fresh p type => exact h rfl
  | aliasOf p => exact h rfl

/-- Two states agree up to a clause, which resolves one reference in ways that
    exclude each other. -/
def Exclusive (s t : PathState) : Prop :=
  ∃ (k : Nat) (ref : RefSymbol) (how how' : Resolution),
    s.condition.clauses.take k = t.condition.clauses.take k ∧
    s.condition.clauses[k]? = some (.resolve ref how) ∧
    t.condition.clauses[k]? = some (.resolve ref how') ∧ how.Excludes how'

namespace Exclusive

variable {s t s' t' : PathState}

theorem ne (h : Exclusive s t) : s.condition.clauses ≠ t.condition.clauses := by
  obtain ⟨k, ref, how, how', -, hs, ht, hexcludes⟩ := h
  intro heq
  rw [heq, ht] at hs
  exact hexcludes.ne (Clause.resolve.inj (Option.some.inj hs)).2.symm

/-- More clauses do not change where the states differ. -/
theorem mono (h : Exclusive s t) (hs : s.condition.clauses <+: s'.condition.clauses)
    (ht : t.condition.clauses <+: t'.condition.clauses) : Exclusive s' t' := by
  obtain ⟨k, ref, how, how', hshared, hk, hk', hexcludes⟩ := h
  have hlt := (List.getElem?_eq_some_iff.1 hk).1
  have hlt' := (List.getElem?_eq_some_iff.1 hk').1
  obtain ⟨more, hmore⟩ := hs
  obtain ⟨more', hmore'⟩ := ht
  refine ⟨k, ref, how, how', ?_, ?_, ?_, hexcludes⟩
  · rw [← hmore, ← hmore', List.take_append_of_le_length (by omega),
      List.take_append_of_le_length (by omega)]
    exact hshared
  · rw [← hmore, List.getElem?_append_left hlt]
    exact hk
  · rw [← hmore', List.getElem?_append_left hlt']
    exact hk'

/-- Two successors of one state whose first new clauses exclude each other. -/
theorem ofFirst {clauses : List Clause} {ref : RefSymbol} {how how' : Resolution}
    (hs : clauses ++ [.resolve ref how] <+: s.condition.clauses)
    (ht : clauses ++ [.resolve ref how'] <+: t.condition.clauses)
    (hexcludes : how.Excludes how') : Exclusive s t := by
  obtain ⟨more, hmore⟩ := hs
  obtain ⟨more', hmore'⟩ := ht
  refine ⟨clauses.length, ref, how, how', ?_, ?_, ?_, hexcludes⟩
  · rw [← hmore, ← hmore', List.append_assoc, List.append_assoc, List.take_left, List.take_left]
  · rw [← hmore, List.append_assoc, List.getElem?_append_right (Nat.le_refl _), Nat.sub_self]
    rfl
  · rw [← hmore', List.append_assoc, List.getElem?_append_right (Nat.le_refl _), Nat.sub_self]
    rfl

end Exclusive

/-- Two ways to resolve a reference that lead to resolutions which exclude each
    other. -/
def Candidate.Excludes (ref : RefSymbol) (c c' : Candidate) : Prop :=
  ∀ how how', c.Yields ref how → c'.Yields ref how' → how.Excludes how'

namespace Environment

variable {τ : Type} {env : Environment τ} {s : PathState} {ref : RefSymbol}

theorem aliasPositions_nodup (className : String) : (env.aliasPositions s className).Nodup := by
  have hpositions : s.heap.positions.Nodup :=
    List.nodup_range.map fun i j hij => by
      have hsum : (i : Int) + 1 = (j : Int) + 1 := hij
      omega
  exact hpositions.filter _

/-- The ways in which an unresolved reference can be resolved exclude each
    other. -/
theorem candidates_pairwise (hnames : (env.classes.classes.map ClassDecl.name).Nodup)
    (hnamed : "" ∉ env.classes.classes.map ClassDecl.name)
    (hnone : s.condition.resolution? ref.number = none) {notNull : List Origin}
    {cs : List Candidate} (h : env.candidates s ref notNull = .ok cs) :
    cs.Pairwise (Candidate.Excludes ref) := by
  have haliases : ((env.aliasPositions s (staticClass ref)).map Candidate.aliasOf).Pairwise
      (Candidate.Excludes ref) := by
    refine List.pairwise_map.2 ((env.aliasPositions_nodup _).imp fun hne how how' hy hy' => ?_)
    rw [show how = _ from hy, show how' = _ from hy']
    exact hne
  have hexpansions : ((env.classes.instantiable (staticClass ref)).map Candidate.expand).Pairwise
      (Candidate.Excludes ref) := by
    rcases ClassTable.instantiable_cases hnames hnamed (staticClass ref) with
      ⟨n, hn⟩ | ⟨hnodup, hempty⟩
    · rw [hn]
      exact List.pairwise_singleton _ _
    · -- Classes that have a name are what the reference is expanded to.
      have hwritten : ∀ n ∈ env.classes.instantiable (staticClass ref), ∀ how,
          Candidate.Yields ref how (.expand n) → ∃ p, how = .fresh p n := by
        rintro n hn how ⟨p, hp⟩
        have hne : n ≠ "" := fun hzero => hempty (hzero ▸ hn)
        rw [if_neg hne] at hp
        exact ⟨p, hp⟩
      refine List.pairwise_map.2 (List.Pairwise.imp_of_mem (fun hn hn' hne how how' hy hy' => ?_)
        hnodup)
      obtain ⟨p, rfl⟩ := hwritten _ hn how hy
      obtain ⟨q, rfl⟩ := hwritten _ hn' how' hy'
      exact hne
  have hnull : ∀ c, c ≠ .null → Candidate.Excludes ref .null c := by
    intro c hc how how' hy hy'
    rw [show how = _ from hy]
    cases c with
    | null => exact absurd rfl hc
    | aliasOf p => rw [show how' = _ from hy']; trivial
    | expand className => obtain ⟨p, rfl⟩ := hy'; trivial
    | unknown n => exact absurd hy' id
  rcases bind_eq_ok h with ⟨_, _, hcs⟩
  rw [hnone] at hcs
  rw [← Except.ok.inj hcs]
  refine List.pairwise_append.2 ⟨List.pairwise_append.2 ⟨?_, haliases, ?_⟩, hexpansions, ?_⟩
  · split
    · exact List.pairwise_singleton _ _
    · exact List.Pairwise.nil
  · intro c hc c' hc'
    obtain ⟨p, -, rfl⟩ := List.mem_map.1 hc'
    split at hc
    · rw [List.mem_singleton.1 hc]
      exact hnull _ (by simp only [ne_eq, reduceCtorEq, not_false_eq_true])
    · exact absurd hc List.not_mem_nil
  · intro c hc c' hc'
    obtain ⟨n, -, rfl⟩ := List.mem_map.1 hc'
    rcases List.mem_append.1 hc with hc | hc
    · split at hc
      · rw [List.mem_singleton.1 hc]
        exact hnull _ (by simp only [ne_eq, reduceCtorEq, not_false_eq_true])
      · exact absurd hc List.not_mem_nil
    · obtain ⟨p, -, rfl⟩ := List.mem_map.1 hc
      rintro how how' hy ⟨q, rfl⟩
      rw [show how = _ from hy]
      trivial

/-- Resolving a reference for the first time puts the clause that resolves it
    before all others that are added. -/
theorem resolve_first {k : Conduct} (henv : env.Conforms k) {u v : Session}
    (hu : u.state.Coherent k.classes) (href : .ref ref ∈ u.state.symbols.symbols)
    (hnone : u.state.condition.resolution? ref.number = none) {c : Candidate} {target : Target}
    (hrun : (env.resolve ref c).runOn u = (.ok target, v)) :
    ∃ how, c.Yields ref how ∧
      u.state.condition.clauses ++ [.resolve ref how] <+: v.state.condition.clauses := by
  rw [← henv.classes] at hu
  have houtcome := resolve_outcome hu href c
  generalize (env.resolve ref c).runOn u = r at houtcome hrun
  cases houtcome with
  | known hclause =>
      rw [hu.parts.condition.resolution?_eq hclause] at hnone
      exact absurd hnone (by simp only [reduceCtorEq, not_false_eq_true])
  | refused e => exact absurd (Prod.mk.inj hrun).1 (by simp only [reduceCtorEq, not_false_eq_true])
  | broken e _ => exact absurd (Prod.mk.inj hrun).1 (by simp only [reduceCtorEq, not_false_eq_true])
  | @announced how s e className hsettles hquiet hclass =>
      obtain ⟨rest, hclauses⟩ := hsettles.clauses
      have hfirst : u.state.condition.clauses ++ [.resolve ref how] <+: s.condition.clauses :=
        ⟨rest, by rw [hclauses, List.append_assoc, List.singleton_append]⟩
      -- Rules only add clauses.
      have hfire := fireFor_clauses (w := ⟨s, e :: u.journal⟩) henv.invoke
        (henv.classes ▸ ((hsettles.changes fun _ _ => True).kept hu).1) ref className how.kind
        how.target
      rcases andThen_eq_ok hrun with ⟨_, w, hlast, hend⟩
      rw [hlast] at hfire
      rw [← (Prod.mk.inj hend).2]
      exact ⟨how, hsettles.yields, hfirst.trans hfire⟩

end Environment

/-- What a step makes of a path: paths that go on from it and exclude each
    other. -/
structure Branches (classes : ClassTable) (s : PathState) (next : List PathState) : Prop where
  onward : ∀ s' ∈ next, Onward classes s s'
  exclusive : next.Pairwise Exclusive

theorem Branches.single {classes : ClassTable} {s s' : PathState} (h : Onward classes s s') :
    Branches classes s [s'] :=
  ⟨fun t ht => by rw [List.mem_singleton.1 ht]; exact h, List.pairwise_singleton _ _⟩

namespace Environment

variable {τ : Type} {env : Environment τ} {k : Conduct} {s : PathState} {ref : RefSymbol}

/-- A successor of a path goes on from it, and its first new clause resolves the
    reference. -/
theorem successor_onward (henv : env.Conforms k) (hs : s.Coherent k.classes)
    (href : .ref ref ∈ s.symbols.symbols) {several : Bool} {i : Nat} {c : Candidate}
    {j j' : Journal} {next : PathState}
    (hrun : env.successor s ref several i c j = (.ok next, j')) :
    Onward k.classes s next ∧ (s.condition.resolution? ref.number = none →
      ∃ how, c.Yields ref how ∧
        s.condition.clauses ++ [.resolve ref how] <+: next.condition.clauses) := by
  unfold successor at hrun
  cases hcopy : s.copy with
  | error e =>
      rw [hcopy] at hrun
      exact absurd (Prod.mk.inj hrun).1 (by simp only [reduceCtorEq, not_false_eq_true])
  | ok t =>
      rw [hcopy] at hrun
      have hid : Follows k ⟨s, j⟩ ⟨{ t with id := s.id.successor several i }, j⟩ :=
        .withId _ _ (.copy (.refl ⟨s, j⟩) hcopy)
      obtain ⟨hcondition, hsymbols⟩ : t.condition = s.condition ∧ t.symbols = s.symbols := by
        rcases bind_eq_ok hcopy with ⟨_, _, heq⟩
        rw [← Except.ok.inj heq]
        exact ⟨rfl, rfl⟩
      have href' : .ref ref ∈ t.symbols.symbols := by rw [hsymbols]; exact href
      have hresolve : Follows k ⟨s, j⟩ ((env.resolve ref c).runOn
          ⟨{ t with id := s.id.successor several i }, j⟩).2 :=
        .resolve env ref c hid (.symbol href') (.refl _) henv.classes henv.rules henv.invoke
      dsimp only at hrun
      rcases hresult : (env.resolve ref c).runOn
        ⟨{ t with id := s.id.successor several i }, j⟩ with ⟨e | target, v⟩
      · rw [hresult] at hrun
        exact absurd (Prod.mk.inj hrun).1 (by simp only [reduceCtorEq, not_false_eq_true])
      · rw [hresult] at hrun
        obtain ⟨hnext, -⟩ := Prod.mk.inj hrun
        rw [← Except.ok.inj hnext]
        refine ⟨?_, fun hnone => ?_⟩
        · rw [hresult] at hresolve
          exact hresolve.onward hs
        · rw [← hcondition] at hnone ⊢
          exact resolve_first henv (hid.onward hs).coherent href' hnone hresult

/-- The successors for ways that exclude each other exclude each other. -/
theorem successors_branch (henv : env.Conforms k) (hs : s.Coherent k.classes)
    (href : .ref ref ∈ s.symbols.symbols) (hnone : s.condition.resolution? ref.number = none)
    {several : Bool} {i : Nat} {cs : List Candidate} {j j' : Journal} {next : List PathState}
    (hcs : cs.Pairwise (Candidate.Excludes ref))
    (hrun : env.successors s ref several i cs j = (.ok next, j')) :
    next.Pairwise Exclusive ∧ ∀ s' ∈ next, Onward k.classes s s' ∧ ∃ c ∈ cs, ∃ how,
      c.Yields ref how ∧ s.condition.clauses ++ [.resolve ref how] <+: s'.condition.clauses := by
  induction cs generalizing i j j' next with
  | nil =>
      rw [← Except.ok.inj (Prod.mk.inj hrun).1]
      exact ⟨List.Pairwise.nil, fun s' hs' => absurd hs' List.not_mem_nil⟩
  | cons c rest ih =>
      obtain ⟨hfirst, hrest⟩ := List.pairwise_cons.1 hcs
      unfold successors at hrun
      rcases hsuccessor : env.successor s ref several i c j with ⟨e | t, j₁⟩
      · rw [hsuccessor] at hrun
        exact absurd (Prod.mk.inj hrun).1 (by simp only [reduceCtorEq, not_false_eq_true])
      · rw [hsuccessor] at hrun
        dsimp only at hrun
        rcases hothers : env.successors s ref several (i + 1) rest j₁ with ⟨e | others, j₂⟩
        · rw [hothers] at hrun
          exact absurd (Prod.mk.inj hrun).1 (by simp only [reduceCtorEq, not_false_eq_true])
        · rw [hothers] at hrun
          rw [← Except.ok.inj (Prod.mk.inj hrun).1]
          obtain ⟨honward, hclause⟩ := successor_onward henv hs href hsuccessor
          obtain ⟨how, hyields, hprefix⟩ := hclause hnone
          obtain ⟨hpairwise, hall⟩ := ih hrest hothers
          refine ⟨List.pairwise_cons.2 ⟨fun t' ht' => ?_, hpairwise⟩, fun t' ht' => ?_⟩
          · obtain ⟨-, c', hc', how', hyields', hprefix'⟩ := hall t' ht'
            exact .ofFirst hprefix hprefix' (hfirst c' hc' how how' hyields hyields')
          · rcases List.mem_cons.1 ht' with rfl | ht'
            · exact ⟨honward, c, List.mem_cons_self, how, hyields, hprefix⟩
            · obtain ⟨honward', c', hc', hmore⟩ := hall t' ht'
              exact ⟨honward', c', List.mem_cons_of_mem c hc', hmore⟩

/-- Branching on a reference. One that is resolved already has a single
    successor. -/
theorem branch_branches (henv : env.Conforms k)
    (hnames : (k.classes.classes.map ClassDecl.name).Nodup)
    (hnamed : "" ∉ k.classes.classes.map ClassDecl.name) (hs : s.Coherent k.classes)
    (href : .ref ref ∈ s.symbols.symbols) {notNull : List Origin} {cs : List Candidate}
    (hcs : env.candidates s ref notNull = .ok cs) {j j' : Journal} {next : List PathState}
    (hrun : env.branch s ref cs j = (.ok next, j')) : Branches k.classes s next := by
  unfold branch at hrun
  split at hrun
  · exact absurd (Prod.mk.inj hrun).1 (by simp only [reduceCtorEq, not_false_eq_true])
  · rw [← henv.classes] at hnames hnamed
    cases hnone : s.condition.resolution? ref.number with
    | none =>
        obtain ⟨hpairwise, hall⟩ := successors_branch henv hs href hnone
          (candidates_pairwise hnames hnamed hnone hcs) hrun
        exact ⟨fun s' hs' => (hall s' hs').1, hpairwise⟩
    | some r =>
        rcases bind_eq_ok hcs with ⟨_, _, hcs⟩
        rw [hnone] at hcs
        rw [← Except.ok.inj hcs] at hrun
        unfold successors at hrun
        rcases hsuccessor : env.successor s ref false 0 (settledCandidate r.2) j with ⟨e | t, j₁⟩
        all_goals
          rw [show decide ([settledCandidate r.2].length > 1) = false from rfl, hsuccessor] at hrun
        · exact absurd (Prod.mk.inj hrun).1 (by simp only [reduceCtorEq, not_false_eq_true])
        · rw [← Except.ok.inj (Prod.mk.inj hrun).1]
          exact .single (successor_onward henv hs href hsuccessor).1

end Environment

variable {k : Conduct} {env : Environment Failure} {s : PathState}

/-- An action of a script leaves a path to go on from, and makes branches of it
    unless it fails. -/
theorem Action.advance_branches (henv : env.Conforms k)
    (hnames : (k.classes.classes.map ClassDecl.name).Nodup)
    (hnamed : "" ∉ k.classes.classes.map ClassDecl.name) (hs : s.Coherent k.classes) (a : Action)
    (j : Journal) :
    let r := (a.advance env).runOn ⟨s, j⟩
    Onward k.classes s r.2.state ∧ ∀ next, r.1 = .ok next → Branches k.classes s next := by
  by_cases hany : ∃ o notNull, a = .resolve o (.any notNull)
  · obtain ⟨o, notNull, rfl⟩ := hany
    obtain ⟨t, hfollows, hstate, hnext⟩ := split_follows k env o notNull ⟨s, j⟩
    have honward : Onward k.classes s t := hfollows.onward hs
    refine ⟨by rw [advance, hstate]; exact honward, fun next hok => ?_⟩
    rcases hnext next hok with rfl | ⟨ref, origins, cs, j₁, j₂, hgiven, hcs, hbranch⟩
    · exact ⟨fun s' hs' => absurd hs' List.not_mem_nil, List.Pairwise.nil⟩
    · have hbranches := Environment.branch_branches henv hnames hnamed honward.coherent
        (hgiven.mem hs) hcs hbranch
      exact ⟨fun s' hs' => honward.trans (hbranches.onward s' hs'), hbranches.exclusive⟩
  · have ha : ∀ o notNull, a ≠ .resolve o (.any notNull) :=
      fun o notNull heq => hany ⟨o, notNull, heq⟩
    obtain ⟨hfollows, hnext⟩ := advance_follows henv a ha ⟨s, j⟩
    refine ⟨hfollows.onward hs, fun next hok => ?_⟩
    obtain ⟨t, rfl, ht⟩ := hnext next hok
    exact .single (ht.onward hs)

/-- A step of a script on one path. -/
theorem Step.execute_branches (henv : env.Conforms k)
    (hnames : (k.classes.classes.map ClassDecl.name).Nodup)
    (hnamed : "" ∉ k.classes.classes.map ClassDecl.name) (hs : s.Coherent k.classes) (step : Step)
    {j : Journal} {next : List PathState} {v : Session}
    (hrun : (step.execute env).runOn ⟨s, j⟩ = (.ok next, v)) : Branches k.classes s next := by
  obtain ⟨honward, hnext⟩ := step.action.advance_branches henv hnames hnamed hs j
  rcases Step.execute_ok hrun with hadvance | ⟨e, w, target, t, hadvance, hthrow, rfl⟩
  · rw [hadvance] at hnext
    exact hnext next rfl
  · rw [hadvance] at honward
    have hthrown : Follows k w ⟨t, w.journal⟩ := .throwException _ (.refl w) hthrow
    exact .single (honward.trans (hthrown.onward honward.coherent))

/-- All steps of a script, on all paths. -/
theorem executeSteps_exclusive (henv : env.Conforms k)
    (hnames : (k.classes.classes.map ClassDecl.name).Nodup)
    (hnamed : "" ∉ k.classes.classes.map ClassDecl.name) {i : Nat} {steps : List Step}
    {paths finals : List PathState} {j j' : Journal} (hpaths : ∀ s ∈ paths, s.Coherent k.classes)
    (hexclusive : paths.Pairwise Exclusive)
    (hrun : executeSteps env i steps paths j = (.ok finals, j')) : finals.Pairwise Exclusive := by
  refine (executeSteps_splits (G := Onward k.classes) (fun _ _ _ h h' => h.trans h')
    (fun _ _ _ _ h hs ht => h.mono hs.clauses ht.clauses) (fun _ hs => ⟨hs, List.prefix_refl _⟩)
    (fun _ _ _ h => h.coherent) (fun step s hs j first v hexecute => ?_) hpaths hexclusive hrun).1
  have hbranches := step.execute_branches henv hnames hnamed hs hexecute
  exact ⟨hbranches.onward, hbranches.exclusive⟩

/-- Any two final states of a script agree up to a clause that resolves one
    reference in ways that exclude each other; so no path is produced twice. -/
theorem finals_exclusive {scenario : Scenario} {classes : ClassTable} {rules : RuleTable}
    (hclasses : ClassTable.ofList scenario.classes = .ok classes) {index : Nat}
    {entry : PathState} (hentry : scenario.entryState index = .ok entry) {script : Script}
    {j j' : Journal} {finals : List PathState}
    (hrun : script.execute (scenario.environment classes rules) entry j = (.ok finals, j')) :
    finals.Pairwise Exclusive ∧ (finals.map fun s => s.condition.clauses).Nodup := by
  have hcoherent : entry.Coherent classes := by
    unfold Scenario.entryState at hentry
    cases henter : PathState.enter scenario.method scenario.isStatic scenario.parameters with
    | error e =>
        rw [henter] at hentry
        exact absurd hentry (by simp only [reduceCtorEq, not_false_eq_true])
    | ok s =>
        rw [henter] at hentry
        rw [← Except.ok.inj hentry]
        have hs := PathState.enter_coherent classes henter
        exact ⟨hs.readable, hs.parts⟩
  obtain ⟨hnames, hnamed⟩ := ClassTable.names_of_ofList hclasses
  have hpairwise : finals.Pairwise Exclusive := by
    unfold Script.execute at hrun
    rcases hsteps : executeSteps (scenario.environment classes rules) 0 script.steps [entry] j
      with ⟨e | paths, j₁⟩
    · rw [hsteps] at hrun
      exact absurd (Prod.mk.inj hrun).1 (by simp only [reduceCtorEq, not_false_eq_true])
    · rw [hsteps] at hrun
      dsimp only at hrun
      split at hrun
      · exact absurd (Prod.mk.inj hrun).1 (by simp only [reduceCtorEq, not_false_eq_true])
      · rw [← Except.ok.inj (Prod.mk.inj hrun).1]
        refine executeSteps_exclusive (scenario.environment_conforms classes rules) hnames hnamed
          (fun s hs => ?_) (List.pairwise_singleton _ _) hsteps
        rw [List.mem_singleton.1 hs]
        exact hcoherent
  refine ⟨hpairwise, List.nodup_iff_pairwise_ne.2 (List.pairwise_map.2 ?_)⟩
  exact hpairwise.imp fun h => h.ne

/-- A search in a list whose nodes may be of two classes. A rule makes the value
    of a node positive. -/
def branchingScenario : Scenario where
  method := searchMethod
  isStatic := true
  parameters := ["list", "keys"]
  classes := [⟨"Node", "", false, [⟨"next", "LNode;"⟩, ⟨"value", "I"⟩]⟩,
    ⟨"Leaf", "Node", false, []⟩]
  triggers := [("positive", [{ assume := "$target.value > 0" }])]

/-- The classes of the scenario, as they are declared. -/
def branchingClasses : ClassTable :=
  ⟨[⟨"Node", rootClass, false, [⟨"next", "LNode;"⟩, ⟨"value", "I"⟩]⟩, ⟨"Leaf", "Node", false, []⟩]⟩

/-- The rule about the first node, which calls the method by the name of its body. -/
def branchingRules : RuleTable :=
  ⟨[⟨0, .expands, .ofRoot "list", "Node", ⟨"Search", "()V", "positive"⟩, ""⟩]⟩

/-- Branches on the list and on the node after the first. -/
def branchingScript : Script where
  steps := [{ resolve := "list", manner := "any" }, { resolve := "list.next", manner := "any" },
    { result := "void" }]

/-- What the script makes of the method. -/
def branchingRun : Except ScriptError (List PathState) × Journal :=
  branchingScript.execute (branchingScenario.environment branchingClasses branchingRules)
    (searchEntry.withId ".1" 0) []

/-- The list is null, and the second step ends the path; or it is of one of two
    classes, and the node after the first is null, the first, or of one of two
    classes. -/
theorem finals_exclusive_branching :
    ∃ finals journal, ClassTable.ofList branchingScenario.classes = .ok branchingClasses ∧
      branchingScenario.entryState 0 = .ok (searchEntry.withId ".1" 0) ∧
      branchingRun = (.ok finals, journal) ∧ finals.length = 9 ∧ finals.Pairwise Exclusive ∧
      (finals.map fun s => s.condition.clauses).Nodup := by
  have hclasses : ClassTable.ofList branchingScenario.classes = .ok branchingClasses := by
    decide +kernel
  have hentry : branchingScenario.entryState 0 = .ok (searchEntry.withId ".1" 0) := by
    have henter : PathState.enter branchingScenario.method branchingScenario.isStatic
        branchingScenario.parameters = .ok searchEntry := enter_search
    unfold Scenario.entryState
    rw [henter]
    rfl
  have hcount : branchingRun.1.toOption.map List.length = some 9 := by decide +kernel
  rcases hrun : branchingRun with ⟨e | finals, journal⟩
  · rw [hrun] at hcount
    exact absurd hcount (by simp [Except.toOption])
  · rw [hrun] at hcount
    exact ⟨finals, journal, hclasses, hentry, rfl, Option.some.inj hcount,
      finals_exclusive hclasses hentry hrun⟩

end PathWitness
