import PathWitness.Proofs.Scenario.Spared

/-!
# Failures of Methods

A step of a script that resolves a reference fires rules, and their methods can fail.
Whether one of them has failed in the course of a step cannot be read off the path or
the journal. It shows in what would have happened otherwise: if methods that fail with a
null dereference are taken to have succeeded, a step goes another way exactly when there
was such a failure.

Nothing stands between a method and the step that holds such a failure up. Rules that
are due after it do not fire, ways to resolve a reference that come after it are not
tried, and the step fails with an error that has the failure of the method as its cause.
`Tracks` carries this through all that a step consists of, along with the fact that a
path stays active meanwhile.

## Main definitions

* `Environment.forgiving`: Methods that fail with a null dereference succeed.
* `StepError.cause?`: The failure of a method that made a step fail.
* `Tracked`: One outcome is another, up to the null dereference of a method.
* `Tracks`: The same of computations, the first of which keeps the status of the path.

## Theorems

* `PathState.lookup_onlyReads`: Reading keeps the condition and the status.
* `Tracks.bind`: Sequences.
* `Environment.resolve_tracks`, `Environment.branch_tracked`: Resolving references.
* `Action.advance_tracks`: The actions of a script.
* `Action.advance_forgiving_ne_iff`: When forgiving methods makes a difference.
* `Scenario.environment_status`: Methods keep the path active.
-/

namespace PathWitness

variable {ε ε' α β : Type} {s s' : PathState} {u v : Session}

section Reading

/-- A state was read. It may have got symbols, and its condition and its status are as
    they were. -/
structure OnlyRead (s s' : PathState) : Prop where
  status : s'.status = s.status
  condition : s'.condition = s.condition

theorem OnlyRead.composes : Composes OnlyRead :=
  ⟨fun _ => ⟨rfl, rfl⟩, fun h h' => ⟨h'.1.trans h.1, h'.2.trans h.2⟩⟩

theorem OnlyRead.sessions : Composes fun u v : Session => OnlyRead u.state v.state :=
  ⟨fun _ => OnlyRead.composes.refl _, OnlyRead.composes.trans⟩

namespace PathState

/-- Reading keeps the condition and the status. -/
theorem lookup_onlyReads (o : Origin) (s : PathState) : OnlyRead s ((lookup o).runOn s).2 := by
  refine lookup_obeys OnlyRead.composes (fun s p o a _ hobject _ => ?_) o s
  rcases fill_spec hobject a with ⟨e, hrun⟩ | ⟨_, _, _, _, _, _, _, _, hrun⟩
  · rw [hrun]
    exact OnlyRead.composes.refl s
  · rw [hrun]
    exact ⟨rfl, rfl⟩

end PathState

theorem valueAt_onlyReads (o : Origin) (u : Session) :
    Obeys (fun u v => OnlyRead u.state v.state) u (valueAt o) :=
  TraceM.obeys_ofPath _ (PathState.lookup_onlyReads o u.state) fun _ h => h

theorem symbolicAt_onlyReads (text : String) (u : Session) :
    Obeys (fun u v => OnlyRead u.state v.state) u (symbolicAt text) := by
  have hR := OnlyRead.sessions
  refine .bind hR (TraceM.obeys_ofExcept hR _ _) fun o _ _ => ?_
  refine .bind hR (valueAt_onlyReads o _) fun x _ _ => ?_
  split
  · exact .pure hR _
  · exact .throw hR _

end Reading

namespace TraceM

theorem runOn_tryCatch_error {m : TraceM ε α} {handle : ε → TraceM ε α} {e : ε}
    (h : m.runOn u = (.error e, v)) :
    TraceM.runOn (tryCatch m handle) u = (handle e).runOn v := by
  unfold runOn at h ⊢
  rw [run_tryCatch, h]

theorem runOn_tryCatch_ok {m : TraceM ε α} {handle : ε → TraceM ε α} {a : α}
    (h : m.runOn u = (.ok a, v)) : TraceM.runOn (tryCatch m handle) u = (.ok a, v) := by
  unfold runOn at h ⊢
  rw [run_tryCatch, h]

end TraceM

/-- A method that fails with a null dereference is taken to have succeeded. -/
def Invoker.forgiving (invoke : Invoker Failure) : Invoker Failure := fun method target parameter =>
  tryCatch (invoke method target parameter) fun f =>
    if f.kind = .nullDereference then pure () else throw f

namespace Environment

/-- Methods that fail with a null dereference are taken to have succeeded. -/
def forgiving (env : Environment Failure) : Environment Failure :=
  { env with invoke := env.invoke.map Invoker.forgiving }

/-- A method fails. -/
def Fails (env : Environment Failure) (f : Failure) : Prop :=
  ∃ invoke method target parameter u v,
    env.invoke = some invoke ∧ (invoke method target parameter).runOn u = (.error f, v)

end Environment

/-- The failure of a method that kept a rule from firing. -/
def FireError.cause? : FireError Failure → Option Failure
  | trigger _ f => some f
  | _ => none

/-- The failure of a method that kept a reference from being resolved. -/
def ResolveError.cause? : ResolveError Failure → Option Failure
  | fire e => e.cause?
  | _ => none

/-- The failure of a method that kept a path from branching. -/
def BranchError.cause? : BranchError Failure → Option Failure
  | candidate _ e => e.cause?
  | _ => none

/-- The failure of a method that made a step fail. -/
def StepError.cause? : StepError → Option Failure
  | resolve e => e.cause?
  | branch e => e.cause?
  | _ => none

section Kinds

variable {f : Failure}

theorem FireError.kind_of_cause {e : FireError Failure} (h : e.cause? = some f) :
    e.kind = f.kind := by
  cases e with
  | trigger method cause => exact congrArg Failure.kind (Option.some.inj h)
  | alreadyFired | access | noInvoker => cases h

theorem ResolveError.kind_of_cause {e : ResolveError Failure} (h : e.cause? = some f) :
    e.kind = f.kind := by
  cases e with
  | fire e => exact e.kind_of_cause h
  | _ => cases h

theorem BranchError.kind_of_cause {e : BranchError Failure} (h : e.cause? = some f) :
    e.kind = f.kind := by
  cases e with
  | candidate c e => exact e.kind_of_cause h
  | contradiction | access => cases h

/-- A step that fails because of a method fails with an error of the same kind. -/
theorem StepError.kind_of_cause {e : StepError} (h : e.cause? = some f) : e.kind = f.kind := by
  cases e with
  | resolve e => exact e.kind_of_cause h
  | branch e => exact e.kind_of_cause h
  | _ => cases h

end Kinds

/-- The path is active, or has ended, as it was before. -/
def SameStatus (u v : Session) : Prop :=
  v.state.status = u.state.status

theorem SameStatus.composes : Composes SameStatus :=
  ⟨fun _ => rfl, fun h h' => h'.trans h⟩

/-- A method has failed if the first outcome is an error that says so, and the second
    outcome is the first, unless a method has failed with a null dereference. -/
structure Tracked {σ : Type} (env : Environment Failure) (cause? : ε → Option Failure)
    (r r' : Except ε α × σ) : Prop where
  blame : ∀ e s f, r = (.error e, s) → cause? e = some f → env.Fails f
  same : r' = r ∨
    ∃ e s f, r = (.error e, s) ∧ cause? e = some f ∧ f.kind = .nullDereference

namespace Tracked

variable {σ : Type} {env : Environment Failure} {cause? : ε → Option Failure}

theorem ok (a : α) (s : σ) : Tracked env cause? (.ok a, s) (.ok a, s) :=
  ⟨fun _ _ _ h => absurd (Prod.mk.inj h).1 (by simp only [reduceCtorEq, not_false_eq_true]),
    .inl rfl⟩

/-- An error that no method is to blame for. -/
theorem error {e : ε} (s : σ) (h : cause? e = none) :
    Tracked env cause? ((.error e, s) : Except ε α × σ) (.error e, s) := by
  refine ⟨fun e' s' f he hf => ?_, .inl rfl⟩
  cases he
  cases h.symm.trans hf

theorem andThen {r r' : Except ε α × σ} {k k' : α → σ → Except ε β × σ}
    (h : Tracked env cause? r r')
    (hk : ∀ a s, r = (.ok a, s) → Tracked env cause? (k a s) (k' a s)) :
    Tracked env cause? (PathWitness.andThen r k) (PathWitness.andThen r' k') := by
  rcases r with ⟨e | a, s⟩
  · -- What comes next is not run after an error, and the null dereference stays as it is.
    refine ⟨fun e' s' f he => ?_, ?_⟩
    · cases he
      exact h.blame e s f rfl
    · rcases h.same with rfl | ⟨e', s', f, he, hf⟩
      · exact .inl rfl
      · cases he
        exact .inr ⟨e, s, f, rfl, hf⟩
  · rcases h.same with rfl | ⟨e', s', f, he, -⟩
    · exact hk a s rfl
    · cases he

/-- An outcome is told differently. What is still an error has the same cause, and the null
    dereference of a method is still an error. -/
theorem map {τ : Type} {r r' : Except ε α × σ} (h : Tracked env cause? r r')
    {cause?' : ε' → Option Failure} {F : Except ε α × σ → Except ε' β × τ}
    (hok : ∀ a s, ∃ b t, F (.ok a, s) = (.ok b, t))
    (herror : ∀ e s e' t, F (.error e, s) = (.error e', t) → cause?' e' = cause? e)
    (hnull : ∀ e s f, cause? e = some f → f.kind = .nullDereference →
      ∃ e' t, F (.error e, s) = (.error e', t)) :
    Tracked env cause?' (F r) (F r') := by
  rcases r with ⟨e | a, s⟩
  · refine ⟨fun e' t f he hf => ?_, ?_⟩
    · exact h.blame e s f rfl ((herror e s e' t he).symm.trans hf)
    · rcases h.same with rfl | ⟨e', s', f, he, hf, hkind⟩
      · exact .inl rfl
      · cases he
        obtain ⟨e', t, htold⟩ := hnull e s f hf hkind
        exact .inr ⟨e', t, f, htold, (herror e s e' t htold).trans hf, hkind⟩
  · rcases h.same with rfl | ⟨e', s', f, he, -⟩
    · obtain ⟨b, t, htold⟩ := hok a s
      rw [htold]
      exact .ok b t
    · cases he

end Tracked

/-- The first computation keeps the status of the path, and the outcome of the second is
    that of the first, up to the null dereference of a method. -/
structure Tracks (env : Environment Failure) (cause? : ε → Option Failure) (u : Session)
    (m m' : TraceM ε α) : Prop where
  status : Obeys SameStatus u m
  tracked : Tracked env cause? (m.runOn u) (m'.runOn u)

namespace Tracks

variable {env : Environment Failure} {cause? : ε → Option Failure}

theorem pure (a : α) : Tracks env cause? u (Pure.pure a) (Pure.pure a) :=
  ⟨.pure SameStatus.composes a, .ok a u⟩

/-- Nothing comes after an error. -/
theorem throw {m m' : TraceM ε α} {e : ε} (hm : m.runOn u = (.error e, u))
    (hm' : m'.runOn u = (.error e, u)) (h : cause? e = none) : Tracks env cause? u m m' := by
  refine ⟨?_, ?_⟩
  · change SameStatus u (m.runOn u).2
    rw [hm]
    rfl
  · rw [hm, hm']
    exact .error u h

/-- Sequences. -/
theorem bind {m m' : TraceM ε α} {f f' : α → TraceM ε β} (hm : Tracks env cause? u m m')
    (hf : ∀ a v, m.runOn u = (.ok a, v) → Tracks env cause? v (f a) (f' a)) :
    Tracks env cause? u (m >>= f) (m' >>= f') := by
  refine ⟨.bind SameStatus.composes hm.status fun a v hrun => (hf a v hrun).status, ?_⟩
  rw [TraceM.runOn_bind, TraceM.runOn_bind]
  exact hm.tracked.andThen fun a v hrun => (hf a v hrun).tracked

theorem mapError {m m' : TraceM ε α} (h : Tracks env cause? u m m') {inject : ε → ε'}
    {cause?' : ε' → Option Failure} (hinject : ∀ e, cause?' (inject e) = cause? e) :
    Tracks env cause?' u (m.mapError inject) (m'.mapError inject) := by
  refine ⟨TraceM.obeys_mapError h.status inject, ?_⟩
  rw [TraceM.runOn_mapError, TraceM.runOn_mapError]
  refine h.tracked.map (F := fun r => (r.1.mapError inject, r.2)) (fun a v => ⟨a, v, rfl⟩) ?_
    fun e v f _ _ => ⟨inject e, v, rfl⟩
  intro e v e' v' he
  cases he
  exact hinject e

theorem ite {c : Prop} [Decidable c] {m m' n n' : TraceM ε α} (hm : Tracks env cause? u m m')
    (hn : Tracks env cause? u n n') :
    Tracks env cause? u (if c then m else n) (if c then m' else n') := by
  by_cases hc : c
  · rwa [if_pos hc, if_pos hc]
  · rwa [if_neg hc, if_neg hc]

/-- A computation on the state that runs no methods and keeps the status. -/
theorem plain {m : TraceM ε α} {r : Except ε α} (hrun : m.runOn u = (r, v))
    (hstatus : v.state.status = u.state.status) (h : ∀ e, r = .error e → cause? e = none) :
    Tracks env cause? u m m := by
  refine ⟨?_, ?_⟩
  · change SameStatus u (m.runOn u).2
    rw [hrun]
    exact hstatus
  · rw [hrun]
    cases r with
    | error e => exact .error v (h e rfl)
    | ok a => exact .ok a v

/-- Errors of another kind are told as errors that no method is to blame for. -/
theorem cause_mapError {inject : ε' → ε} (hinject : ∀ e, cause? (inject e) = none)
    {r : Except ε' α} (e : ε) (h : r.mapError inject = .error e) : cause? e = none := by
  cases r with
  | error e' =>
      rw [← Except.error.inj h]
      exact hinject e'
  | ok a => cases h

theorem onCondition {inject : ConditionError → ε} (hinject : ∀ e, cause? (inject e) = none)
    (m : ConditionM α) :
    Tracks env cause? u (TraceM.onCondition inject m) (TraceM.onCondition inject m) :=
  .plain (TraceM.runOn_onCondition inject m u) rfl (cause_mapError hinject)

theorem ofPath {inject : ε' → ε} (hinject : ∀ e, cause? (inject e) = none) {m : PathM ε' α}
    (h : OnlyRead u.state (m.runOn u.state).2) :
    Tracks env cause? u (TraceM.ofPath inject m) (TraceM.ofPath inject m) :=
  .plain (TraceM.runOn_ofPath inject m u) h.status (cause_mapError hinject)

/-- A result that does not touch the session. -/
theorem ofExcept {inject : ε' → ε} (hinject : ∀ e, cause? (inject e) = none) {r : Except ε' α}
    {f f' : α → TraceM ε β} (h : ∀ a, r = .ok a → Tracks env cause? u (f a) (f' a)) :
    Tracks env cause? u (TraceM.ofExcept inject r >>= f) (TraceM.ofExcept inject r >>= f') := by
  cases r with
  | error e => exact .throw rfl rfl (hinject e)
  | ok a => exact h a rfl

/-- The state of the path is at hand. -/
theorem state {f f' : PathState → TraceM ε β} (h : Tracks env cause? u (f u.state) (f' u.state)) :
    Tracks env cause? u (TraceM.state >>= f) (TraceM.state >>= f') :=
  ⟨h.status, h.tracked⟩

theorem setState {f f' : Unit → TraceM ε β} (hs : s.status = u.state.status)
    (h : Tracks env cause? ⟨s, u.journal⟩ (f ()) (f' ())) :
    Tracks env cause? u (TraceM.setState s >>= f) (TraceM.setState s >>= f') :=
  ⟨Eq.trans h.status hs, h.tracked⟩

theorem record {e : Event} {f f' : Unit → TraceM ε β}
    (h : Tracks env cause? ⟨u.state, e :: u.journal⟩ (f ()) (f' ())) :
    Tracks env cause? u (TraceM.record e >>= f) (TraceM.record e >>= f') :=
  ⟨h.status, h.tracked⟩

end Tracks

namespace Environment

variable {env : Environment Failure}

/-- What is forgiven does not happen. -/
theorem kind_of_fails {f : Failure} (h : env.forgiving.Fails f) : f.kind ≠ .nullDereference := by
  obtain ⟨invoke', method, target, parameter, u, v, hsome, hrun⟩ := h
  obtain ⟨invoke, -, rfl⟩ := Option.map_eq_some_iff.1 hsome
  unfold Invoker.forgiving at hrun
  rcases hfirst : (invoke method target parameter).runOn u with ⟨f' | _, w⟩
  · rw [TraceM.runOn_tryCatch_error hfirst] at hrun
    by_cases hkind : f'.kind = .nullDereference
    · rw [if_pos hkind] at hrun
      cases hrun
    · rw [if_neg hkind] at hrun
      cases hrun
      exact hkind
  · rw [TraceM.runOn_tryCatch_ok hfirst] at hrun
    cases hrun

theorem InvokeObeys.forgiving (hinvoke : env.InvokeObeys SameStatus) :
    env.forgiving.InvokeObeys SameStatus := by
  intro invoke' hsome method target parameter u
  obtain ⟨invoke, hinner, rfl⟩ := Option.map_eq_some_iff.1 hsome
  refine .tryCatch SameStatus.composes (hinvoke invoke hinner method target parameter u) ?_
  intro f v _
  split
  · exact .pure SameStatus.composes ()
  · exact .throw SameStatus.composes f

/-- A method that makes one computation fail is forgiven in the other. -/
theorem invoke_tracks {invoke : Invoker Failure} (hsome : env.invoke = some invoke)
    (hinvoke : env.InvokeObeys SameStatus) (method : Signature) (target : Target)
    (parameter : String) : Tracks env some u (invoke method target parameter)
      (invoke.forgiving method target parameter) := by
  refine ⟨hinvoke invoke hsome method target parameter u, ⟨fun e v f hrun he => ?_, ?_⟩⟩
  · obtain rfl := Option.some.inj he
    exact ⟨invoke, method, target, parameter, u, v, hsome, hrun⟩
  · unfold Invoker.forgiving
    rcases hrun : (invoke method target parameter).runOn u with ⟨f | _, v⟩
    · rw [TraceM.runOn_tryCatch_error hrun]
      by_cases hkind : f.kind = .nullDereference
      · -- Here, and nowhere else, the two computations part.
        exact .inr ⟨f, v, f, rfl, rfl, hkind⟩
      · rw [if_neg hkind]
        exact .inl rfl
    · exact .inl (TraceM.runOn_tryCatch_ok hrun)

theorem fire_tracks (hinvoke : env.InvokeObeys SameStatus) (rule : Rule) (o : Origin)
    (target : Target) :
    Tracks env FireError.cause? u (env.fire rule o target) (env.forgiving.fire rule o target) := by
  refine .state (.ite (.throw rfl rfl rfl) (.ofExcept (fun _ => rfl) fun s hmark => ?_))
  -- Only the list of fired rules is written.
  have hstatus : s.status = u.state.status := by
    obtain ⟨_, -, hs⟩ := bind_eq_ok hmark
    rw [← Except.ok.inj hs]
  refine .setState hstatus (.record ?_)
  cases hsome : env.invoke with
  | none =>
      simp only [forgiving, hsome, Option.map_none]
      exact .throw rfl rfl rfl
  | some invoke =>
      simp only [forgiving, hsome, Option.map_some]
      exact (invoke_tracks hsome hinvoke _ _ _).mapError fun _ => rfl

theorem fireEach_tracks (hinvoke : env.InvokeObeys SameStatus) (o : Origin) (target : Target)
    (rules : List Rule) : Tracks env FireError.cause? u (env.fireEach o target rules)
      (env.forgiving.fireEach o target rules) := by
  induction rules generalizing u with
  | nil => exact .pure 0
  | cons rule rest ih =>
      refine .state (.ite ih ?_)
      exact .bind (fire_tracks hinvoke rule o target) fun _ _ _ => .bind ih fun _ _ _ => .pure _

theorem fireFor_tracks (hinvoke : env.InvokeObeys SameStatus) (ref : RefSymbol)
    (className : String) (kind : TriggerKind) (target : Target) :
    Tracks env ResolveError.cause? u (env.fireFor ref className kind target)
      (env.forgiving.fireFor ref className kind target) :=
  .bind ((fireEach_tracks hinvoke _ _ _).mapError fun _ => rfl) fun _ _ _ => .pure _

theorem resolveNull_tracks (hinvoke : env.InvokeObeys SameStatus) (ref : RefSymbol) :
    Tracks env ResolveError.cause? u (env.resolveNull ref) (env.forgiving.resolveNull ref) := by
  refine .bind (.onCondition (fun _ => rfl) _) fun _ _ _ => .record ?_
  exact .bind (fireFor_tracks hinvoke _ _ _ _) fun _ _ _ => .pure _

theorem resolveAlias_tracks (hinvoke : env.InvokeObeys SameStatus) (ref : RefSymbol) (p : Int) :
    Tracks env ResolveError.cause? u (env.resolveAlias ref p)
      (env.forgiving.resolveAlias ref p) := by
  refine .state (.ofExcept (fun _ => rfl) fun o _ => .ite (.throw rfl rfl rfl) ?_)
  refine .bind (.onCondition (fun _ => rfl) _) fun _ _ _ => .record ?_
  exact .bind (fireFor_tracks hinvoke _ _ _ _) fun _ _ _ => .pure _

theorem expandArray_tracks (ref : RefSymbol) (type : String) :
    Tracks env ResolveError.cause? u (expandArray ref type) (expandArray ref type) := by
  refine .state (.ofExcept (fun _ => rfl) fun length _ => .setState rfl ?_)
  refine .ofExcept (fun _ => rfl) fun condition _ => .ofExcept (fun _ => rfl) fun place _ => ?_
  exact .setState rfl (.bind (.onCondition (fun _ => rfl) _) fun _ _ _ => .pure _)

theorem addFields_tracks (origin : Origin) (className : String) (p : Int)
    (fields : List FieldDecl) : Tracks env ResolveError.cause? u
      (addFields origin className p fields) (addFields origin className p fields) := by
  induction fields generalizing u with
  | nil => exact .pure _
  | cons f rest ih =>
      refine .state (.ofExcept (fun _ => rfl) fun x _ => .ofExcept (fun _ => rfl) fun heap _ => ?_)
      exact .setState rfl ih

theorem expandObject_tracks (ref : RefSymbol) (className : String) :
    Tracks env ResolveError.cause? u (env.expandObject ref className)
      (env.forgiving.expandObject ref className) := by
  refine .state (.setState rfl (.bind (.onCondition (fun _ => rfl) _) fun _ _ _ => ?_))
  exact .bind (addFields_tracks _ _ _ _) fun _ _ _ => .pure _

theorem resolveExpand_tracks (hinvoke : env.InvokeObeys SameStatus) (ref : RefSymbol)
    (className : String) : Tracks env ResolveError.cause? u (env.resolveExpand ref className)
      (env.forgiving.resolveExpand ref className) := by
  refine .ite (.throw rfl rfl rfl) (.ite (.throw rfl rfl rfl) (.ite ?_ ?_))
  · refine .bind (expandArray_tracks _ _) fun _ _ _ => .record ?_
    exact .bind (fireFor_tracks hinvoke _ _ _ _) fun _ _ _ => .pure _
  · refine .bind (expandObject_tracks _ _) fun _ _ _ => .record ?_
    exact .bind (fireFor_tracks hinvoke _ _ _ _) fun _ _ _ => .pure _

/-- Resolving a reference. -/
theorem resolve_tracks (hinvoke : env.InvokeObeys SameStatus) (ref : RefSymbol) (c : Candidate) :
    Tracks env ResolveError.cause? u (env.resolve ref c) (env.forgiving.resolve ref c) := by
  refine .state (.ofExcept (fun _ => rfl) fun _ _ => ?_)
  cases u.state.condition.resolution? ref.number with
  | some clause => exact .pure _
  | none =>
      refine .ofExcept (fun _ => rfl) fun _ _ => ?_
      cases c with
      | null => exact resolveNull_tracks hinvoke ref
      | aliasOf p => exact resolveAlias_tracks hinvoke ref p
      | expand className => exact resolveExpand_tracks hinvoke ref className
      | unknown n => exact .throw rfl rfl rfl

theorem successor_tracked (hinvoke : env.InvokeObeys SameStatus) (s : PathState) (ref : RefSymbol)
    (several : Bool) (i : Nat) (c : Candidate) (j : Journal) :
    Tracked env BranchError.cause? (env.successor s ref several i c j)
      (env.forgiving.successor s ref several i c j) := by
  unfold successor
  cases s.copy with
  | error e => exact .error j rfl
  | ok next =>
      dsimp only
      have h := (resolve_tracks (u := ⟨{ next with id := s.id.successor several i }, j⟩)
        hinvoke ref c).tracked
      generalize (env.resolve ref c).runOn _ = r, (env.forgiving.resolve ref c).runOn _ = r' at h ⊢
      apply h.map
      · exact fun target v => ⟨v.state, v.journal, rfl⟩
      · intro e v e' j' he
        cases he
        rfl
      · exact fun e v f _ _ => ⟨.candidate c e, v.journal, rfl⟩

theorem successors_tracked (hinvoke : env.InvokeObeys SameStatus) (s : PathState) (ref : RefSymbol)
    (several : Bool) (i : Nat) (cs : List Candidate) (j : Journal) :
    Tracked env BranchError.cause? (env.successors s ref several i cs j)
      (env.forgiving.successors s ref several i cs j) := by
  induction cs generalizing i j with
  | nil => exact .ok [] j
  | cons c rest ih =>
      rw [successors_cons, successors_cons]
      exact (successor_tracked hinvoke s ref several i c j).andThen fun next j' _ =>
        (ih (i + 1) j').andThen fun others j'' _ => .ok _ _

/-- Branching on a reference. -/
theorem branch_tracked (hinvoke : env.InvokeObeys SameStatus) (s : PathState) (ref : RefSymbol)
    (cs : List Candidate) (j : Journal) :
    Tracked env BranchError.cause? (env.branch s ref cs j) (env.forgiving.branch s ref cs j) := by
  unfold branch
  split
  · exact .error j rfl
  · exact successors_tracked hinvoke s ref _ 0 cs j

end Environment

section Reading

variable {env : Environment Failure}

theorem originAt_tracks {f f' : Origin → TraceM StepError α} (text : String)
    (h : ∀ o, Tracks env StepError.cause? u (f o) (f' o)) :
    Tracks env StepError.cause? u (originAt text >>= f) (originAt text >>= f') :=
  .ofExcept (fun _ => rfl) fun o _ => h o

theorem valueAt_tracks (o : Origin) :
    Tracks env StepError.cause? u (valueAt o) (valueAt o) :=
  .ofPath (fun _ => rfl) (PathState.lookup_onlyReads o u.state)

theorem evaluate_tracks (source : String) :
    Tracks env StepError.cause? u (evaluate source) (evaluate source) :=
  .ofPath (fun _ => rfl)
    (Expression.parse_obeys OnlyRead.composes PathState.lookup_onlyReads source)

theorem symbolicAt_tracks (text : String) :
    Tracks env StepError.cause? u (symbolicAt text) (symbolicAt text) := by
  refine originAt_tracks text fun o => .bind (valueAt_tracks o) fun x _ _ => ?_
  split
  · exact .pure _
  · exact .throw rfl rfl rfl

theorem positionAt_tracks (text : String) :
    Tracks env StepError.cause? u (positionAt text) (positionAt text) := by
  refine originAt_tracks text fun o => .bind (valueAt_tracks o) fun x _ _ => ?_
  split
  · refine .state (.ofExcept (fun _ => rfl) fun target _ => ?_)
    split
    · exact .throw rfl rfl rfl
    · exact .pure _
  · exact .throw rfl rfl rfl

end Reading

namespace Action

variable {env : Environment Failure}

theorem performAssume_tracks (text : String) :
    Tracks env StepError.cause? u (performAssume text) (performAssume text) := by
  refine .state (.ofExcept (fun _ => rfl) fun _ _ => .bind (evaluate_tracks text) fun x _ _ => ?_)
  split
  · exact .onCondition (fun _ => rfl) _
  · exact .throw rfl rfl rfl

theorem settle_tracks (hinvoke : env.InvokeObeys SameStatus) (ref : RefSymbol) (c : Candidate) :
    Tracks env StepError.cause? u (performResolve.settle env ref c)
      (performResolve.settle env.forgiving ref c) :=
  .bind ((Environment.resolve_tracks hinvoke ref c).mapError fun _ => rfl) fun _ _ _ => .pure _

theorem performResolve_tracks (hinvoke : env.InvokeObeys SameStatus) (ref : RefSymbol)
    (how : Manner) : Tracks env StepError.cause? u (performResolve env ref how)
      (performResolve env.forgiving ref how) := by
  cases how with
  | null => exact settle_tracks hinvoke ref .null
  | expand className => exact settle_tracks hinvoke ref (.expand className)
  | aliasOf target =>
      exact .bind (positionAt_tracks target) fun p _ _ => settle_tracks hinvoke ref (.aliasOf p)
  | any notNull => exact .throw rfl rfl rfl
  | unknown word => exact .throw rfl rfl rfl

theorem perform_tracks (hinvoke : env.InvokeObeys SameStatus) (a : Action) :
    Tracks env StepError.cause? u (a.perform env) (a.perform env.forgiving) := by
  cases a with
  | resolve o how =>
      exact .bind (symbolicAt_tracks o) fun ref _ _ => performResolve_tracks hinvoke ref how
  | assume c => exact performAssume_tracks c
  | giveBack e => exact .throw rfl rfl rfl
  | raise className => exact .throw rfl rfl rfl
  | idle => exact .pure _

theorem mapM_originAt_tracks {f f' : List Origin → TraceM StepError α} (texts : List String)
    (h : ∀ os, Tracks env StepError.cause? u (f os) (f' os)) :
    Tracks env StepError.cause? u (texts.mapM originAt >>= f) (texts.mapM originAt >>= f') := by
  induction texts generalizing f f' with
  | nil => exact h []
  | cons text rest ih =>
      simp only [List.mapM_cons, bind_assoc, pure_bind]
      exact originAt_tracks text fun o => ih fun os => h (o :: os)

/-- A path that is to branch is only read, and its branches are copies. -/
theorem split_onlyReads (origin : String) (notNull : List String) (u : Session) :
    Obeys (fun u v => OnlyRead u.state v.state) u (split env origin notNull) := by
  have hR := OnlyRead.sessions
  refine .bind hR (symbolicAt_onlyReads origin u) fun ref v _ => ?_
  have horigins : Obeys (fun u v => OnlyRead u.state v.state) v (notNull.mapM originAt) := by
    obtain ⟨r, hr⟩ := mapM_originAt_run notNull v
    change OnlyRead v.state ((notNull.mapM originAt).runOn v).2.state
    rw [hr]
    exact hR.refl v
  refine .bind hR horigins fun origins _ _ => .bind hR (TraceM.obeys_state hR) fun s _ _ => ?_
  refine .bind hR (TraceM.obeys_ofExcept hR _ _) fun candidates w _ => ?_
  change OnlyRead w.state (TraceM.runOn _ w).2.state
  simp only [TraceM.runOn_bind, TraceM.runOn_get, andThen_ok, TraceM.runOn_modify]
  rcases env.branch s ref candidates w.journal with ⟨e | next, j⟩
  · dsimp only
    split <;> exact ⟨rfl, rfl⟩
  · exact ⟨rfl, rfl⟩

theorem split_tracks (hinvoke : env.InvokeObeys SameStatus) (origin : String)
    (notNull : List String) : Tracks env StepError.cause? u (split env origin notNull)
      (split env.forgiving origin notNull) := by
  refine .bind (symbolicAt_tracks origin) fun ref v _ => ?_
  refine mapM_originAt_tracks notNull fun origins => .state (.ofExcept (fun _ => rfl) ?_)
  intro candidates _
  have hbranch := Environment.branch_tracked hinvoke v.state ref candidates v.journal
  refine ⟨?_, ?_⟩
  · change (TraceM.runOn _ v).2.state.status = v.state.status
    simp only [TraceM.runOn_bind, TraceM.runOn_get, andThen_ok, TraceM.runOn_modify]
    rcases env.branch v.state ref candidates v.journal with ⟨e | next, j⟩
    · dsimp only
      split <;> rfl
    · rfl
  · simp only [TraceM.runOn_bind, TraceM.runOn_get, andThen_ok, TraceM.runOn_modify]
    generalize env.branch v.state ref candidates v.journal = r,
      env.forgiving.branch v.state ref candidates v.journal = r' at hbranch ⊢
    apply hbranch.map
    · exact fun next j => ⟨next, ⟨v.state, j⟩, rfl⟩
    · intro e j e' v' he
      dsimp only at he
      split at he
      · cases he
      · cases he
        rfl
    · -- A null dereference is no contradiction, so it is not passed over.
      intro e j f hf hkind
      have hnot : (e.kind == ErrorKind.contradiction) = false := by
        rw [e.kind_of_cause hf, hkind]
        rfl
      refine ⟨.branch e, ⟨v.state, j⟩, ?_⟩
      simp only [hnot, Bool.false_eq_true, if_false, TraceM.runOn_throw]

/-- The actions of a script. -/
theorem advance_tracks (hinvoke : env.InvokeObeys SameStatus) (a : Action) :
    Tracks env StepError.cause? u (a.advance env) (a.advance env.forgiving) := by
  have hperform : Tracks env StepError.cause? u (do a.perform env; return [← TraceM.state])
      (do a.perform env.forgiving; return [← TraceM.state]) :=
    .bind (perform_tracks hinvoke a) fun _ _ _ => .state (.pure _)
  cases a with
  | resolve o how =>
      cases how with
      | any notNull => exact split_tracks hinvoke o notNull
      | null | expand | aliasOf | unknown => exact hperform
  | giveBack e =>
      cases e with
      | none =>
          exact .bind (.pure _) fun _ _ _ => .state (.ofExcept (fun _ => rfl) fun _ _ => .pure _)
      | some source =>
          exact .bind (evaluate_tracks source) fun _ _ _ =>
            .state (.ofExcept (fun _ => rfl) fun _ _ => .pure _)
  | raise className => exact .state (.ofExcept (fun _ => rfl) fun _ _ => .pure _)
  | assume | idle => exact hperform

/-- An action would go another way if methods were forgiven their null dereferences,
    exactly if it fails because of one. -/
theorem advance_forgiving_ne_iff (hinvoke : env.InvokeObeys SameStatus) (a : Action) :
    (a.advance env.forgiving).runOn u ≠ (a.advance env).runOn u ↔
      ∃ e v f, (a.advance env).runOn u = (.error e, v) ∧ e.cause? = some f ∧
        f.kind = .nullDereference := by
  refine ⟨fun hne => (advance_tracks hinvoke a).tracked.same.resolve_left hne, ?_⟩
  rintro ⟨e, v, f, hrun, hcause, hkind⟩ heq
  -- The same failure would have come from a method that is forgiven it.
  have hfails := (advance_tracks hinvoke.forgiving a).tracked.blame e v f (heq.trans hrun) hcause
  exact Environment.kind_of_fails hfails hkind

end Action

theorem SameStatus.spares : Spares fun s s' => s'.status = s.status :=
  ⟨⟨fun _ => rfl, fun h h' => h'.trans h⟩, fun _ _ _ _ _ => rfl⟩

/-- Methods keep the path active. -/
theorem Scenario.environment_status (s : Scenario) (classes : ClassTable) (rules : RuleTable) :
    (s.environment classes rules).InvokeObeys SameStatus :=
  s.environment_spared SameStatus.spares classes rules

end PathWitness
