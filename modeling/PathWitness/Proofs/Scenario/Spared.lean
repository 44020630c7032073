import PathWitness.Proofs.Scenario.Steps

/-!
# What Resolving and Reading Leave Alone

Whatever is done on a path short of ending or branching it, four parts of its state are
written: the condition, the heap, the symbols and the list of fired rules. The variables,
the identifier, the status and the result are not. So a relation that holds of every
writing of those four parts, and composes, is obeyed by every operation, and no part has to
be followed through all of them on its own.

The methods of rules are asked to obey the relation too. Those of a scenario do, by
induction on the depth to which their bodies are nested.

## Main definitions

* `Spares`: A relation that holds of every writing of the four parts.
* `Along`: The same relation between sessions.

## Theorems

* `lookup_spared`, `resolve_spared`: Reading values and resolving references.
* `perform_spared`: An action of a body.
* `split_spared`: A path that branches is only read.
* `environment_spared`: The methods of a scenario.
* `successor_spared`: What a successor of a path still has in common with it.
-/

namespace PathWitness

variable {τ ε α : Type} {T : PathState → PathState → Prop} {u : Session}

/-- A relation that holds of every writing of the condition, the heap, the symbols and the
    list of fired rules. -/
structure Spares (T : PathState → PathState → Prop) : Prop extends Composes T where
  written : ∀ (s : PathState) condition heap symbols fired,
    T s { s with condition := condition, heap := heap, symbols := symbols, fired := fired }

/-- The states of two sessions are related. -/
def Along (T : PathState → PathState → Prop) (u v : Session) : Prop :=
  T u.state v.state

theorem Spares.along (hT : Spares T) : Composes (Along T) :=
  ⟨fun _ => hT.refl _, fun h h' => hT.trans h h'⟩

theorem onCondition_spared (hT : Spares T) (inject : ConditionError → ε) (m : ConditionM α)
    (u : Session) : Obeys (Along T) u (TraceM.onCondition inject m) := by
  change Along T u ((TraceM.onCondition inject m).runOn u).2
  rw [TraceM.runOn_onCondition]
  exact hT.written u.state _ _ _ _

/-- Reading creates symbols and writes them to the heap. -/
theorem lookup_spared (hT : Spares T) (o : Origin) (s : PathState) :
    T s ((PathState.lookup o).runOn s).2 := by
  refine PathState.lookup_obeys hT.toComposes (fun s p o a _ hobject _ => ?_) o s
  rcases PathState.fill_spec hobject a with ⟨e, hrun⟩ | ⟨_, _, _, _, _, _, _, _, hrun⟩
  · rw [hrun]
    exact hT.refl s
  · rw [hrun]
    exact hT.written s _ _ _ _

namespace Environment

variable {env : Environment τ}

theorem fire_spared (hT : Spares T) (hinvoke : env.InvokeObeys (Along T)) (rule : Rule)
    (o : Origin) (target : Target) (u : Session) :
    Obeys (Along T) u (env.fire rule o target) := by
  have hnoted : Along T u (u.noteFired rule o target) := hT.written u.state _ _ _ _
  change Along T u ((env.fire rule o target).runOn u).2
  rcases env.fire_cases rule o target u with ⟨e, he⟩ | ⟨-, ⟨-, e, he⟩ | ⟨invoke, hsome, hrun⟩⟩
  · rw [he]
    exact hT.refl _
  · rw [he]
    exact hnoted
  · rw [hrun]
    exact hT.trans hnoted (TraceM.obeys_mapError (hinvoke invoke hsome _ _ _ _) _)

theorem fireEach_spared (hT : Spares T) (hinvoke : env.InvokeObeys (Along T)) (o : Origin)
    (target : Target) (rules : List Rule) (u : Session) :
    Obeys (Along T) u (env.fireEach o target rules) :=
  fireEach_of_fire hT.along rules fun v rule _ => fire_spared hT hinvoke rule o target v

theorem fireFor_spared (hT : Spares T) (hinvoke : env.InvokeObeys (Along T)) (ref : RefSymbol)
    (className : String) (kind : TriggerKind) (target : Target) (u : Session) :
    Obeys (Along T) u (env.fireFor ref className kind target) :=
  .bind hT.along (TraceM.obeys_mapError (fireEach_spared hT hinvoke _ _ _ u) _) fun _ _ _ =>
    .pure hT.along _

/-- How every resolution ends: it is recorded, and rules fire. -/
theorem announce_spared (hT : Spares T) (hinvoke : env.InvokeObeys (Along T)) (e : Event)
    (ref : RefSymbol) (className : String) (kind : TriggerKind) (target : Target) (u : Session) :
    Obeys (Along T) u (do
      TraceM.record e
      env.fireFor ref className kind target
      return target : TraceM (ResolveError τ) Target) :=
  TraceM.obeys_bind_record hT.along (hT.refl _)
    (.bind hT.along (fireFor_spared hT hinvoke _ _ _ _ _) fun _ _ _ => .pure hT.along _)

theorem expandArray_spared (hT : Spares T) (ref : RefSymbol) (type : String) (u : Session) :
    Obeys (Along T) u (expandArray ref type : TraceM (ResolveError τ) Int) := by
  refine TraceM.obeys_bind_state (TraceM.obeys_bind_ofExcept hT.along fun length _ => ?_)
  refine TraceM.obeys_bind_setState hT.along (hT.written u.state _ _ _ _) ?_
  refine TraceM.obeys_bind_ofExcept hT.along fun condition _ => ?_
  refine TraceM.obeys_bind_ofExcept hT.along fun place _ => ?_
  refine TraceM.obeys_bind_setState hT.along (hT.written _ _ _ _ _) ?_
  exact .bind hT.along (onCondition_spared hT _ _ _) fun _ _ _ => .pure hT.along _

theorem addFields_spared (hT : Spares T) (origin : Origin) (className : String) (p : Int)
    (fields : List FieldDecl) (u : Session) :
    Obeys (Along T) u (addFields origin className p fields : TraceM (ResolveError τ) Unit) := by
  induction fields generalizing u with
  | nil => exact .pure hT.along _
  | cons f rest ih =>
      refine TraceM.obeys_bind_state (TraceM.obeys_bind_ofExcept hT.along fun x _ => ?_)
      refine TraceM.obeys_bind_ofExcept hT.along fun heap _ => ?_
      exact TraceM.obeys_bind_setState hT.along (hT.written u.state _ _ _ _) (ih _)

theorem expandObject_spared (hT : Spares T) (ref : RefSymbol) (className : String) (u : Session) :
    Obeys (Along T) u (env.expandObject ref className) := by
  refine TraceM.obeys_bind_state ?_
  refine TraceM.obeys_bind_setState hT.along (hT.written u.state _ _ _ _) ?_
  refine .bind hT.along (onCondition_spared hT _ _ _) fun _ _ _ => ?_
  exact .bind hT.along (addFields_spared hT _ _ _ _ _) fun _ _ _ => .pure hT.along _

theorem resolveExpand_spared (hT : Spares T) (hinvoke : env.InvokeObeys (Along T))
    (ref : RefSymbol) (className : String) (u : Session) :
    Obeys (Along T) u (env.resolveExpand ref className) := by
  have hrefused := hT.along.refl u
  refine .ite hrefused (.ite hrefused (.ite ?_ ?_))
  · exact .bind hT.along (expandArray_spared hT _ _ u) fun _ _ _ =>
      announce_spared hT hinvoke _ _ _ _ _ _
  · exact .bind hT.along (expandObject_spared hT _ _ u) fun _ _ _ =>
      announce_spared hT hinvoke _ _ _ _ _ _

/-- Resolving references writes the four parts, and methods are asked to. -/
theorem resolve_spared (hT : Spares T) (hinvoke : env.InvokeObeys (Along T)) (ref : RefSymbol)
    (c : Candidate) (u : Session) : Obeys (Along T) u (env.resolve ref c) := by
  refine TraceM.obeys_bind_state (TraceM.obeys_bind_ofExcept hT.along fun _ _ => ?_)
  cases u.state.condition.resolution? ref.number with
  | some clause => exact .pure hT.along _
  | none =>
      refine TraceM.obeys_bind_ofExcept hT.along fun _ _ => ?_
      cases c with
      | null =>
          exact .bind hT.along (onCondition_spared hT _ _ u) fun _ _ _ =>
            announce_spared hT hinvoke _ _ _ _ _ _
      | aliasOf p =>
          refine TraceM.obeys_bind_state (TraceM.obeys_bind_ofExcept hT.along fun o _ => ?_)
          split
          · exact .throw hT.along _
          · exact .bind hT.along (onCondition_spared hT _ _ u) fun _ _ _ =>
              announce_spared hT hinvoke _ _ _ _ _ _
      | expand className => exact resolveExpand_spared hT hinvoke ref className u
      | unknown n => exact .throw hT.along _

end Environment

section Reading

theorem valueAt_spared (hT : Spares T) (o : Origin) (u : Session) :
    Obeys (Along T) u (valueAt o) :=
  TraceM.obeys_ofPath _ (lookup_spared hT o u.state) fun _ h => h

theorem evaluate_spared (hT : Spares T) (source : String) (u : Session) :
    Obeys (Along T) u (evaluate source) :=
  TraceM.obeys_ofPath _ (Expression.parse_obeys hT.toComposes (lookup_spared hT) source)
    fun _ h => h

theorem symbolicAt_spared (hT : Spares T) (text : String) (u : Session) :
    Obeys (Along T) u (symbolicAt text) := by
  refine TraceM.obeys_bind_ofExcept hT.along fun o _ => ?_
  refine .bind hT.along (valueAt_spared hT o u) fun x _ _ => ?_
  split
  · exact .pure hT.along _
  · exact .throw hT.along _

theorem positionAt_spared (hT : Spares T) (text : String) (u : Session) :
    Obeys (Along T) u (positionAt text) := by
  refine TraceM.obeys_bind_ofExcept hT.along fun o _ => ?_
  refine .bind hT.along (valueAt_spared hT o u) fun x _ _ => ?_
  split
  · refine TraceM.obeys_bind_state (TraceM.obeys_bind_ofExcept hT.along fun target _ => ?_)
    split
    · exact .throw hT.along _
    · exact .pure hT.along _
  · exact .throw hT.along _

end Reading

namespace Action

variable {env : Environment Failure}

theorem performAssume_spared (hT : Spares T) (text : String) (u : Session) :
    Obeys (Along T) u (performAssume text) := by
  refine TraceM.obeys_bind_state (TraceM.obeys_bind_ofExcept hT.along fun _ _ => ?_)
  refine .bind hT.along (evaluate_spared hT text u) fun x _ _ => ?_
  split
  · exact onCondition_spared hT _ _ _
  · exact .throw hT.along _

/-- An action of a body. -/
theorem perform_spared (hT : Spares T) (hinvoke : env.InvokeObeys (Along T)) (a : Action)
    (u : Session) : Obeys (Along T) u (a.perform env) := by
  have hsettle : ∀ ref c u, Obeys (Along T) u (performResolve.settle env ref c) :=
    fun ref c u => .bind hT.along
      (TraceM.obeys_mapError (Environment.resolve_spared hT hinvoke ref c u) _)
      fun _ _ _ => .pure hT.along _
  cases a with
  | resolve o how =>
      refine .bind hT.along (symbolicAt_spared hT o u) fun ref v _ => ?_
      cases how with
      | null => exact hsettle ref .null v
      | expand className => exact hsettle ref (.expand className) v
      | aliasOf target =>
          exact .bind hT.along (positionAt_spared hT target v) fun p w _ =>
            hsettle ref (.aliasOf p) w
      | any notNull => exact .throw hT.along _
      | unknown word => exact .throw hT.along _
  | assume c => exact performAssume_spared hT c u
  | giveBack e => exact .throw hT.along _
  | raise className => exact .throw hT.along _
  | idle => exact .pure hT.along _

/-- A path that branches is only read. -/
theorem split_spared (hT : Spares T) (origin : String) (notNull : List String) (u : Session) :
    Obeys (Along T) u (split env origin notNull) := by
  refine .bind hT.along (symbolicAt_spared hT origin u) fun ref v _ => ?_
  obtain ⟨r, hr⟩ := mapM_originAt_run notNull v
  change Along T v (TraceM.runOn _ v).2
  rw [TraceM.runOn_bind, hr]
  cases r with
  | error e => exact hT.refl _
  | ok origins =>
      simp only [andThen_ok, TraceM.runOn_bind, TraceM.runOn_state, TraceM.runOn_ofExcept]
      cases env.candidates v.state ref origins with
      | error e => exact hT.refl _
      | ok candidates =>
          simp only [Except.mapError, andThen_ok, TraceM.runOn_get, TraceM.runOn_modify]
          rcases env.branch v.state ref candidates v.journal with ⟨e | next, j⟩
          · dsimp only
            split <;> exact hT.refl _
          · exact hT.refl _

end Action

/-- The methods of a scenario. -/
theorem Scenario.environment_spared (hT : Spares T) (s : Scenario) (classes : ClassTable)
    (rules : RuleTable) : (s.environment classes rules).InvokeObeys (Along T) := by
  intro invoke hsome method target parameter u
  rw [← Option.some.inj hsome]
  refine s.invoker_obeys classes rules hT.along (fun invoke hinvoke a u => ?_) _ method target
    parameter u
  refine Action.perform_spared hT (fun invoke' hsome' => ?_) a u
  rw [← Option.some.inj hsome']
  exact hinvoke

/-- A successor of a path is a copy with an identifier of its own, in which only the four
    parts are written. -/
theorem Environment.successor_spared {env : Environment τ} (hT : Spares T)
    (hinvoke : env.InvokeObeys (Along T)) {s next : PathState} {ref : RefSymbol} {several : Bool}
    {i : Nat} {c : Candidate} {j j' : Journal}
    (h : env.successor s ref several i c j = (.ok next, j')) :
    T { s with status := .active, id := s.id.successor several i } next := by
  unfold successor at h
  cases hcopy : s.copy with
  | error e =>
      rw [hcopy] at h
      cases (Prod.mk.inj h).1
  | ok t =>
      obtain ⟨_, -, ht⟩ := bind_eq_ok hcopy
      obtain rfl := Except.ok.inj ht
      rw [hcopy] at h
      dsimp only at h
      have hresolve := env.resolve_spared hT hinvoke ref c
        ⟨{ s with status := .active, id := s.id.successor several i }, j⟩
      unfold Obeys at hresolve
      unfold TraceM.runOn at h
      rcases hrun : (StateT.run (ExceptT.run (env.resolve ref c))
        ⟨{ s with status := .active, id := s.id.successor several i }, j⟩ :
          Except (ResolveError τ) Target × Session) with ⟨e | target, v⟩
      · rw [hrun] at h
        cases (Prod.mk.inj h).1
      · rw [hrun] at h hresolve
        rw [← Except.ok.inj (Prod.mk.inj h).1]
        exact hresolve

end PathWitness
