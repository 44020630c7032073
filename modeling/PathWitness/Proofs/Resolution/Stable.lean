import PathWitness.Proofs.Rule.Runs

/-!
# Resolved References Stay Resolved

What a reference was resolved to is written down once, in the clause that resolves it.
Three functions read it there: resolving again, following the reference, and listing
the ways in which it can be resolved. Along a path clauses are only added, and no
reference has two clauses, so the three go on giving the same answer, whatever is done
with the path afterwards, and whether it has ended or was copied.

Rules fire while a reference is being resolved, and their methods may ask about it.
The clause is added before any of them fires.

## Main definitions

* `Target.candidate`: The way to resolve a reference that names a target.
* `Session.Decided`: All readers give the same target.

## Theorems

* `Session.decided_of_clause`: The clause decides what readers say.
* `Environment.resolve_ok`: A resolution that succeeds has added its clause.
* `decided_of_resolve`: A reference that was resolved stays what it is.
-/

namespace PathWitness

/-- The way to resolve a reference that names a target. -/
def Target.candidate : Target → Candidate
  | null => .null
  | object p => .aliasOf p

/-- Whoever asks about a reference is told the same target, and asking changes
    nothing. -/
structure Session.Decided (u : Session) (ref : RefSymbol) (target : Target) : Prop where
  /-- Resolving the reference in any way. -/
  again : ∀ {τ : Type} (env : Environment τ) (c : Candidate),
    (env.resolve ref c).runOn u = (.ok target, u)
  /-- Following the reference. -/
  deref : u.state.deref (.symbolic ref) = .ok target
  /-- Listing the ways in which the reference can be resolved. -/
  candidates : ∀ {τ : Type} (env : Environment τ) (notNull : List Origin),
    env.candidates u.state ref notNull = .ok [target.candidate]

variable {classes : ClassTable} {k : Conduct} {τ : Type} {env : Environment τ} {u v w : Session}
  {ref : RefSymbol} {how : Resolution}

/-- A clause leads to null or to a position that is in use, so its target names it. -/
theorem settledCandidate_eq (hu : u.state.Coherent classes)
    (hclause : .resolve ref how ∈ u.state.condition.clauses) :
    Environment.settledCandidate how = how.target.candidate := by
  have hfits := hu.parts.clauses ref how hclause
  cases how with
  | null => rfl
  | fresh p type =>
      rcases hfits with ⟨o, ho, -⟩
      rw [Resolution.target, Target.ofPosition_of_pos (Heap.pos_of_get? ho).1]
      rfl
  | aliasOf p =>
      rcases hfits with ⟨o, ho, -⟩
      rw [Resolution.target, Target.ofPosition_of_pos (Heap.pos_of_get? ho).1]
      rfl

/-- The clause that resolves a reference decides what readers say. -/
theorem Session.decided_of_clause (hu : u.state.Coherent classes)
    (hclause : .resolve ref how ∈ u.state.condition.clauses) : u.Decided ref how.target := by
  have hresolution := hu.parts.condition.resolution?_eq hclause
  have hreadable := hu.checkReadable
  refine ⟨fun env c => ?_, ?_, fun env notNull => ?_⟩
  · simp only [Environment.resolve, TraceM.runOn_bind, TraceM.runOn_state, andThen_ok,
      TraceM.runOn_ofExcept, hreadable, Except.mapError, hresolution, TraceM.runOn_pure]
  · simp only [PathState.deref, hresolution]
  · simp only [Environment.candidates, hreadable, hresolution, bind, Except.bind, pure,
      Except.pure, settledCandidate_eq hu hclause]

/-- A resolution that succeeds has added its clause, or found it. -/
theorem Environment.resolve_ok (hclasses : env.classes = k.classes)
    (hinvoke : env.InvokeObeys (Follows k)) (hu : u.state.Coherent k.classes)
    (href : .ref ref ∈ u.state.symbols.symbols) {c : Candidate} {target : Target}
    (hrun : (env.resolve ref c).runOn u = (.ok target, v)) :
    ∃ how, how.target = target ∧ .resolve ref how ∈ v.state.condition.clauses := by
  have houtcome := resolve_outcome (hclasses ▸ hu) href c
  generalize (env.resolve ref c).runOn u = outcome at houtcome hrun
  cases houtcome with
  | @known how hclause =>
      rcases Prod.mk.inj hrun with ⟨htarget, rfl⟩
      exact ⟨how, Except.ok.inj htarget, hclause⟩
  | refused e hearly => exact absurd (Prod.mk.inj hrun).1 (by simp)
  | broken e hsettles hfills => exact absurd (Prod.mk.inj hrun).1 (by simp)
  | @announced how s event className hsettles hquiet hclass =>
      have hs := (hsettles.changes fun _ _ => True).kept (hclasses ▸ hu)
      have hfire := fireFor_clauses (w := ⟨s, event :: u.journal⟩) hinvoke (hclasses ▸ hs.1) ref
        className how.kind how.target
      rcases andThen_eq_ok hrun with ⟨_, w, hlast, hend⟩
      rw [hlast] at hfire
      rcases Prod.mk.inj hend with ⟨htarget, rfl⟩
      exact ⟨how, Except.ok.inj htarget, hfire.subset hsettles.clause⟩

/-- Once a reference was resolved on a path, all that ask about it later on are told the
    same target. -/
theorem decided_of_resolve {signature : Signature} {isStatic : Bool} {names : List String}
    {s : PathState} (henter : PathState.enter signature isStatic names = .ok s)
    (hu : Follows k ⟨s, []⟩ u) (href : .ref ref ∈ u.state.symbols.symbols)
    (hclasses : env.classes = k.classes) (hrules : k.rules env.rules)
    (hinvoke : env.InvokeObeys (Follows k)) {c : Candidate} {target : Target}
    (hrun : (env.resolve ref c).runOn u = (.ok target, v)) (hw : Follows k v w) :
    w.Decided ref target := by
  have hu' := (hu.onward (PathState.enter_coherent k.classes henter)).coherent
  have hresolve := Follows.resolve env ref c (.refl u) (.symbol href) (.refl u) hclasses hrules
    hinvoke
  rw [hrun] at hresolve
  have honward := hw.onward (hresolve.onward hu').coherent
  rcases env.resolve_ok hclasses hinvoke hu' href hrun with ⟨how, rfl, hclause⟩
  exact Session.decided_of_clause honward.coherent (honward.clauses.subset hclause)

/-- The list was made a loop by the method of a rule, and after that the path has
    ended. -/
def returnedSession : Session :=
  ⟨{ watchedSession.state with returned := none, status := .frozen }, watchedSession.journal⟩

theorem watchEnvironment_resolves :
    (watchEnvironment.resolve ⟨0, "LNode;", .ofRoot "list"⟩ (.expand "")).runOn ⟨searchEntry, []⟩
      = (.ok (.object 1), watchedSession) := by
  have htarget : ((watchEnvironment.resolve ⟨0, "LNode;", .ofRoot "list"⟩ (.expand "")).runOn
      ⟨searchEntry, []⟩).1.toOption = some (.object 1) := by decide +kernel
  unfold watchedSession
  generalize (watchEnvironment.resolve ⟨0, "LNode;", .ofRoot "list"⟩ (.expand "")).runOn
    ⟨searchEntry, []⟩ = r at htarget ⊢
  rcases r with ⟨e | target, v⟩
  · simp [Except.toOption] at htarget
  · simp only [Except.toOption, Option.some.injEq] at htarget
    rw [htarget]

/-- The path has ended, and the list is still the node it was expanded to. -/
theorem decided_of_resolve_returned :
    PathState.enter searchMethod true ["list", "keys"] = .ok searchEntry ∧
      Follows (.underRules nodeClasses watchTable False) watchedSession returnedSession ∧
      returnedSession.state.status = .frozen ∧
      returnedSession.Decided ⟨0, "LNode;", .ofRoot "list"⟩ (.object 1) := by
  have hactive : watchedSession.state.status = .active := by decide +kernel
  have hreturn : Follows (.underRules nodeClasses watchTable False) watchedSession
      returnedSession := by
    refine .returnValue none (.refl _) ?_
    simp only [PathState.returnValue, PathState.checkActive, PathState.freeze, hactive, bind,
      Except.bind, pure, Except.pure]
  exact ⟨enter_search, hreturn, rfl, decided_of_resolve enter_search (.refl _) (by decide) rfl rfl
    (watchEnvironment_follows rfl rfl) watchEnvironment_resolves hreturn⟩

end PathWitness
