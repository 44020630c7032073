import PathWitness.Proofs.PathState.Follows
import PathWitness.Scenario.Execution

/-!
# Steps of Scripts along a Path

A script reads values, assumes conditions and resolves references, and so do the
bodies of the methods that rules run. All of it is done by operations on one
path, in an order that depends on what is found on the way. So a session in which
a step has been performed follows the one before the step, and what holds along
every path holds for scripts.

Reading an expression only looks values up. A reference is resolved right after
it was read, except that the target of an alias is looked up in between.

The nesting of bodies is bounded, and the induction is on the depth that is left.

## Main definitions

* `Environment.Conforms`: References are resolved the way a path requires it.
* `Splits`: What a step makes of a path.

## Theorems

* `parse_obeys`: Reading an expression obeys what lookups obey.
* `perform_follows`: An action of a body.
* `invoker_obeys`, `invoker_follows`: The bodies of methods.
* `advance_obeys`, `advance_follows`, `split_follows`: An action of a script.
* `executeEach_cons`, `executeSteps_cons`: How a script goes on.
* `Step.execute_ok`, `Script.execute_ok`: What has succeeded when they have.
* `executeSteps_splits`: Paths that differ go on differing from each other.
-/

namespace PathWitness

namespace Expression

section Reading

variable {σ ε : Type} {T : σ → σ → Prop} {s : σ}
  {lookup : Origin → StateM σ (Except ε (Option Value))}

theorem originValue_obeys (hT : Composes T) (hlookup : ∀ o s, T s (StateT.run (lookup o) s).2)
    (path : String) : Obeys T s (originValue lookup path) := by
  unfold originValue
  cases Origin.parse path with
  | error e => exact .throw hT _
  | ok o =>
      have hread : Obeys T s (liftM (lookup o) : ExceptT (ExprFault ε) (StateM σ) _) := hlookup o s
      refine .bind hT hread fun r s' _ => ?_
      cases r with
      | ok v => exact .pure hT v
      | error e => exact .throw hT _

theorem accept_obeys (hT : Composes T) (m : Machine) (v : Option Value) :
    Obeys T s (m.accept v : ExceptT (ExprFault ε) (StateM σ) Machine) :=
  .bind hT (.mk hT _) fun _ _ _ => .pure hT _

/-- The operand in hand may be an origin. -/
theorem settle_obeys (hT : Composes T) (hlookup : ∀ o s, T s (StateT.run (lookup o) s).2)
    (m : Machine) : Obeys T s (m.settle lookup) := by
  unfold Machine.settle
  split
  · split
    · exact accept_obeys hT _ _
    · exact .pure hT m
  · exact .bind hT (.mk hT _) fun _ _ _ => accept_obeys hT m _
  · split
    · exact accept_obeys hT m _
    · exact .throw hT _
  · exact .bind hT (originValue_obeys hT hlookup _) fun _ _ _ => accept_obeys hT m _
  all_goals exact .pure hT m

theorem operandToken_obeys (hT : Composes T) (m : Machine) (t : Token) :
    Obeys T s (m.operandToken t : ExceptT (ExprFault ε) (StateM σ) Machine) := by
  unfold Machine.operandToken
  split
  all_goals first
    | exact .throw hT _
    | exact .pure hT _

theorem operatorToken_obeys (hT : Composes T) (m : Machine) (t : Token) :
    Obeys T s (m.operatorToken t : ExceptT (ExprFault ε) (StateM σ) Machine) := by
  unfold Machine.operatorToken
  split
  · exact .bind hT (.mk hT _) fun _ _ _ => .pure hT _
  · refine .bind hT (.mk hT _) fun r _ _ => ?_
    rcases r with ⟨pending, values⟩
    dsimp only
    split
    · split
      · exact .pure hT _
      · exact .throw hT _
    · exact .throw hT _

theorem step_obeys (hT : Composes T) (hlookup : ∀ o s, T s (StateT.run (lookup o) s).2)
    (m : Machine) (t : Token) : Obeys T s (m.step lookup t) := by
  have hnext : ∀ s, Obeys T s (do (← m.settle lookup).operatorToken t) := fun s =>
    .bind hT (settle_obeys hT hlookup m) fun _ _ _ => operatorToken_obeys hT _ t
  unfold Machine.step
  cases t.fault with
  | some f => exact hT.refl s
  | none =>
      dsimp only
      cases m.mode with
      | operand => exact operandToken_obeys hT m t
      | floating text => exact hnext s
      | complete => exact hnext s
      | integer text =>
          dsimp only
          split
          · exact .bind hT (.mk hT _) fun _ _ _ => .pure hT _
          · exact hnext s
      | origin path =>
          dsimp only
          split
          · exact .pure hT _
          · split
            · exact .pure hT _
            · exact hnext s
      | field path | index path | bracket path =>
          dsimp only
          split
          · exact .pure hT _
          · exact .throw hT _

theorem finish_obeys (hT : Composes T) (hlookup : ∀ o s, T s (StateT.run (lookup o) s).2)
    (m : Machine) : Obeys T s (m.finish lookup) := by
  unfold Machine.finish
  split
  all_goals first
    | exact .throw hT _
    | skip
  all_goals
    refine .bind hT (settle_obeys hT hlookup m) fun _ _ _ => .bind hT (.mk hT _) fun r _ _ => ?_
    rcases r with ⟨pending, values⟩
    dsimp only
    split
    · exact .pure hT _
    · exact .throw hT _

/-- Reading an expression obeys what lookups obey. -/
theorem parse_obeys (hT : Composes T) (hlookup : ∀ o s, T s (StateT.run (lookup o) s).2)
    (source : String) : T s (StateT.run (parse lookup source) s).2 := by
  have hfold : ∀ (tokens : List Token) (m : Machine) (s : σ),
      Obeys T s (tokens.foldlM (Machine.step lookup) m) := by
    intro tokens
    induction tokens with
    | nil => exact fun m s => .pure hT m
    | cons t rest ih =>
        intro m s
        rw [List.foldlM_cons]
        exact .bind hT (step_obeys hT hlookup m t) fun _ _ _ => ih _ _
  have hrun : Obeys T s (do
      let m ← (Token.scan source).foldlM (Machine.step lookup) {}
      m.finish lookup) :=
    .bind hT (hfold _ _ s) fun _ _ _ => finish_obeys hT hlookup _
  have hlast : ∀ {β : Type} (m : StateM σ (Except (ExprFault ε) (Option Value)))
      (next : Except (ExprFault ε) (Option Value) → StateM σ β),
      (∀ r s, (StateT.run (next r) s).2 = s) →
      (StateT.run (m >>= next) s).2 = (StateT.run m s).2 :=
    fun m next hnext => hnext (StateT.run m s).1 (StateT.run m s).2
  -- An error is only given the text it was found in.
  have hparse : (StateT.run (parse lookup source) s).2 = _ := hlast (ExceptT.run (do
    let m ← (Token.scan source).foldlM (Machine.step lookup) {}
    m.finish lookup)) _ fun r s => by cases r <;> rfl
  rw [hparse]
  exact hrun

end Reading

end Expression

variable {k : Conduct} {u v : Session} {τ : Type}

/-- References are resolved the way a path requires it, and conditions are not
    restricted. -/
structure Environment.Conforms (k : Conduct) (env : Environment τ) : Prop where
  classes : env.classes = k.classes
  rules : k.rules env.rules
  invoke : env.InvokeObeys (Follows k)
  conditions : ∀ s t, k.conditions s t

section Reading

/-- Looking a value up is a step of every path. -/
theorem lookup_follows (o : Origin) (s : PathState) :
    ∀ j, Follows k ⟨s, j⟩ ⟨((PathState.lookup o).runOn s).2, j⟩ :=
  fun _ => .lookup o (.refl _)

theorem originAt_run (text : String) (u : Session) : ∃ r, (originAt text).runOn u = (r, u) :=
  ⟨_, TraceM.runOn_ofExcept _ _ _⟩

theorem valueAt_follows (o : Origin) (u : Session) : Obeys (Follows k) u (valueAt o) := by
  unfold valueAt
  exact TraceM.obeys_ofPath (T := fun s s' => ∀ j, Follows k ⟨s, j⟩ ⟨s', j⟩) _
    (lookup_follows o u.state) fun _ h => h u.journal

theorem evaluate_follows (source : String) (u : Session) :
    Obeys (Follows k) u (evaluate source) := by
  have hT : Composes fun s s' => ∀ j, Follows k ⟨s, j⟩ ⟨s', j⟩ :=
    ⟨fun _ _ => .refl _, fun h h' j => (h j).trans (h' j)⟩
  unfold evaluate
  exact TraceM.obeys_ofPath (T := fun s s' => ∀ j, Follows k ⟨s, j⟩ ⟨s', j⟩) _
    (Expression.parse_obeys hT lookup_follows source) fun _ h => h u.journal

/-- Giving out a reference is a step of every path. -/
theorem Given.follows {ref : RefSymbol} {s : PathState} (hgiven : Given u.state ref s) :
    Follows k u ⟨s, u.journal⟩ := by
  cases hgiven with
  | symbol _ => exact .refl u
  | read o hread =>
      have hlookup := lookup_follows (k := k) o u.state u.journal
      rwa [hread] at hlookup

/-- A reference is given out when it is read. -/
theorem symbolicAt_cases (k : Conduct) (text : String) (u : Session) :
    (∃ e s, (symbolicAt text).runOn u = (.error e, ⟨s, u.journal⟩) ∧
        Follows k u ⟨s, u.journal⟩) ∨
      ∃ ref s, (symbolicAt text).runOn u = (.ok ref, ⟨s, u.journal⟩) ∧ Given u.state ref s := by
  unfold symbolicAt
  rw [TraceM.runOn_bind]
  rcases horigin : (originAt text).runOn u with ⟨e | o, w⟩
  all_goals
    obtain ⟨r, hr⟩ := originAt_run text u
    rw [hr] at horigin
    obtain ⟨-, rfl⟩ := Prod.mk.inj horigin
  · exact .inl ⟨e, u.state, rfl, .refl u⟩
  · have hlookup : Follows k u ((valueAt o).runOn u).2 := valueAt_follows o u
    rw [andThen_ok, TraceM.runOn_bind]
    unfold valueAt at hlookup ⊢
    rw [TraceM.runOn_ofPath] at hlookup ⊢
    rcases hread : (PathState.lookup o).runOn u.state with ⟨e | x, s⟩
    · rw [hread] at hlookup
      exact .inl ⟨_, _, rfl, hlookup⟩
    · rw [hread] at hlookup
      simp only [Except.mapError, andThen_ok]
      split
      · exact .inr ⟨_, s, rfl, .read o hread⟩
      · exact .inl ⟨_, _, rfl, hlookup⟩

theorem positionAt_follows (text : String) (u : Session) :
    Obeys (Follows k) u (positionAt text) := by
  have hR := Follows.composes k
  refine .bind hR (TraceM.obeys_ofExcept hR _ _) fun o _ _ => ?_
  refine .bind hR (valueAt_follows o _) fun x _ _ => ?_
  split
  · refine .bind hR (TraceM.obeys_state hR) fun s _ _ => ?_
    refine .bind hR (TraceM.obeys_ofExcept hR _ _) fun target _ _ => ?_
    split
    · exact .throw hR _
    · exact .pure hR _
  · exact .throw hR _

end Reading

namespace Action

variable {env : Environment Failure}

theorem performAssume_follows (hconditions : ∀ s t, k.conditions s t) (text : String)
    (u : Session) : Obeys (Follows k) u (performAssume text) := by
  have hR := Follows.composes k
  refine .bind hR (TraceM.obeys_state hR) fun s _ _ => ?_
  refine .bind hR (TraceM.obeys_ofExcept hR _ _) fun _ _ _ => ?_
  refine .bind hR (evaluate_follows text _) fun x w _ => ?_
  split
  · rename_i t _
    have hassume := Follows.assume (some t) (fun t _ => hconditions w.state t) (.refl w)
    change Follows k w ((TraceM.onCondition .condition (PathCondition.assume (some t)) :
      TraceM StepError Unit).runOn w).2
    rw [TraceM.runOn_onCondition]
    exact hassume
  · exact .throw hR _

/-- A reference is resolved after it was read, and after whatever else has been
    done since. -/
theorem settle_follows (henv : env.Conforms k) {ref : RefSymbol} {s : PathState}
    (hgiven : Given u.state ref s) (h : Follows k ⟨s, u.journal⟩ v) (c : Candidate) :
    Follows k u ((performResolve.settle env ref c).runOn v).2 := by
  have hresolve := Follows.resolve env ref c (.refl u) hgiven h henv.classes henv.rules henv.invoke
  unfold performResolve.settle
  rw [TraceM.runOn_bind, TraceM.runOn_mapError]
  rcases hrun : (env.resolve ref c).runOn v with ⟨e | target, w⟩
  all_goals
    rw [hrun] at hresolve
    exact hresolve

theorem performResolve_follows (henv : env.Conforms k) {ref : RefSymbol} {s : PathState}
    (hgiven : Given u.state ref s) (how : Manner) :
    Follows k u ((performResolve env ref how).runOn ⟨s, u.journal⟩).2 := by
  have hread := hgiven.follows (k := k)
  cases how with
  | null => exact settle_follows henv hgiven (.refl _) .null
  | expand className => exact settle_follows henv hgiven (.refl _) (.expand className)
  | aliasOf target =>
      have hposition : Follows k ⟨s, u.journal⟩ ((positionAt target).runOn ⟨s, u.journal⟩).2 :=
        positionAt_follows target _
      simp only [performResolve, TraceM.runOn_bind]
      rcases hrun : (positionAt target).runOn ⟨s, u.journal⟩ with ⟨e | p, w⟩
      · rw [hrun] at hposition
        exact hread.trans hposition
      · rw [hrun] at hposition
        exact settle_follows henv hgiven hposition (.aliasOf p)
  | any notNull => exact hread
  | unknown word => exact hread

/-- An action of a body is done on one path. -/
theorem perform_follows (henv : env.Conforms k) (a : Action) (u : Session) :
    Obeys (Follows k) u (a.perform env) := by
  have hR := Follows.composes k
  cases a with
  | resolve o how =>
      change Follows k u ((do performResolve env (← symbolicAt o) how).runOn u).2
      rw [TraceM.runOn_bind]
      rcases symbolicAt_cases k o u with ⟨e, s, hrun, hfollows⟩ | ⟨ref, s, hrun, hgiven⟩
      · rw [hrun]
        exact hfollows
      · rw [hrun]
        exact performResolve_follows henv hgiven how
  | assume c => exact performAssume_follows henv.conditions c u
  | giveBack e => exact .throw hR _
  | raise className => exact .throw hR _
  | idle => exact .pure hR _

end Action

theorem performBody_obeys {R : Session → Session → Prop} (hR : Composes R)
    {env : Environment Failure} (hperform : ∀ (a : Action) u, Obeys R u (a.perform env))
    (b : Binding) (name : String) (i : Nat) (steps : List Step) (u : Session) :
    Obeys R u (performBody env b name i steps) := by
  induction steps generalizing i u with
  | nil => exact .pure hR _
  | cons s rest ih =>
      exact .bind hR (TraceM.obeys_mapError (hperform _ u) _) fun _ _ _ => ih (i + 1) _

namespace Scenario

variable (s : Scenario) (classes : ClassTable) (rules : RuleTable)

/-- The bodies of methods obey what actions obey, however deeply they are nested. -/
theorem invoker_obeys {R : Session → Session → Prop} (hR : Composes R)
    (hperform : ∀ invoke : Invoker Failure,
      (∀ method target parameter u, Obeys R u (invoke method target parameter)) →
      ∀ (a : Action) u, Obeys R u (a.perform ⟨classes, rules, some invoke⟩))
    (depth : Nat) (method : Signature) (target : Target) (parameter : String) (u : Session) :
    Obeys R u (s.invoker classes rules depth method target parameter) := by
  -- The induction is on the number of bodies that may still be nested.
  induction depth generalizing method target parameter u with
  | zero =>
      unfold invoker
      refine TraceM.obeys_mapError ?_ _
      split
      · exact .throw hR _
      · exact .throw hR _
  | succ n ih =>
      unfold invoker
      refine TraceM.obeys_mapError ?_ _
      split
      · exact .throw hR _
      · refine .bind hR (TraceM.obeys_state hR) fun _ _ _ => ?_
        refine .bind hR (TraceM.obeys_ofExcept hR _ _) fun _ _ _ => ?_
        exact performBody_obeys hR (hperform _ ih) _ _ _ _ _

/-- The bodies of methods stay on their path. -/
theorem invoker_follows (depth : Nat) (method : Signature) (target : Target) (parameter : String)
    (u : Session) : Obeys (Follows (.underRules classes rules False)) u
      (s.invoker classes rules depth method target parameter) := by
  refine s.invoker_obeys classes rules (Follows.composes _) (fun invoke hinvoke a u => ?_)
    depth method target parameter u
  refine Action.perform_follows ⟨rfl, rfl, fun invoke' hi => ?_, fun _ _ => trivial⟩ a u
  rw [← Option.some.inj hi]
  exact hinvoke

theorem environment_conforms :
    (s.environment classes rules).Conforms (.underRules classes rules False) where
  classes := rfl
  rules := rfl
  invoke := fun invoke hi => by
    rw [← Option.some.inj hi]
    exact s.invoker_follows classes rules TriggerError.maxDepth
  conditions := fun _ _ => trivial

end Scenario

namespace Action

variable {env : Environment Failure}

/-- An action that does not branch leads from one path to one path. It obeys what the
    actions of bodies, reading an expression and ending the path obey. -/
theorem advance_obeys {R : Session → Session → Prop} (hR : Composes R)
    (hperform : ∀ (a : Action) u, Obeys R u (a.perform env))
    (hevaluate : ∀ source u, Obeys R u (evaluate source))
    (hreturn : ∀ (u : Session) x s, u.state.returnValue x = .ok s → R u ⟨s, u.journal⟩)
    (hthrow : ∀ (u : Session) type target s, u.state.throwException type = .ok (target, s) →
      R u ⟨s, u.journal⟩) (a : Action)
    (ha : ∀ o notNull, a ≠ .resolve o (.any notNull)) (u : Session) :
    let r := (a.advance env).runOn u
    R u r.2 ∧ ∀ next, r.1 = .ok next → ∃ s, next = [s] ∧ R u ⟨s, r.2.journal⟩ := by
  have hfailed : ∀ {next : List PathState} (e : StepError), Except.error e ≠ .ok next :=
    fun _ => by simp only [ne_eq, reduceCtorEq, not_false_eq_true]
  have hbody : ∀ a : Action, a.advance env = (do a.perform env; return [← TraceM.state]) →
      let r := (a.advance env).runOn u
      R u r.2 ∧ ∀ next, r.1 = .ok next → ∃ s, next = [s] ∧ R u ⟨s, r.2.journal⟩ := by
    intro a heq
    have hdone : R u ((a.perform env).runOn u).2 := hperform a u
    rw [heq]
    simp only [TraceM.runOn_bind]
    rcases hrun : (a.perform env).runOn u with ⟨e | _, v⟩
    · rw [hrun] at hdone
      exact ⟨hdone, fun _ h => absurd h (hfailed e)⟩
    · rw [hrun] at hdone
      exact ⟨hdone, fun next h => ⟨v.state, (Except.ok.inj h).symm, hdone⟩⟩
  cases a with
  | resolve o how =>
      cases how with
      | any notNull => exact absurd rfl (ha o notNull)
      | null => exact hbody _ rfl
      | expand className => exact hbody _ rfl
      | aliasOf target => exact hbody _ rfl
      | unknown word => exact hbody _ rfl
  | assume c => exact hbody _ rfl
  | idle => exact hbody _ rfl
  | giveBack e =>
      -- A path that returns nothing reads nothing.
      have hvalue : ∀ m : TraceM StepError (Option Value), R u (m.runOn u).2 →
          let r := (do
            let x ← m
            return [← TraceM.ofExcept .access ((← TraceM.state).returnValue x)] :
              TraceM StepError (List PathState)).runOn u
          R u r.2 ∧ ∀ next, r.1 = .ok next → ∃ s, next = [s] ∧ R u ⟨s, r.2.journal⟩ := by
        intro m hread
        simp only [TraceM.runOn_bind]
        rcases hrun : m.runOn u with ⟨e' | x, v⟩
        · rw [hrun] at hread
          exact ⟨hread, fun _ h => absurd h (hfailed _)⟩
        · rw [hrun] at hread
          simp only [andThen_ok, TraceM.runOn_state, TraceM.runOn_ofExcept]
          cases hs : v.state.returnValue x with
          | error e => exact ⟨hread, fun _ h => absurd h (hfailed _)⟩
          | ok s =>
              exact ⟨hread, fun next h =>
                ⟨s, (Except.ok.inj h).symm, hR.trans hread (hreturn v x s hs)⟩⟩
      cases e with
      | some source => exact hvalue (evaluate source) (hevaluate source u)
      | none => exact hvalue (pure none) (hR.refl u)
  | raise className =>
      simp only [advance, TraceM.runOn_bind, TraceM.runOn_state, andThen_ok, TraceM.runOn_ofExcept]
      cases hs : u.state.throwException className with
      | error e => exact ⟨hR.refl u, fun _ h => absurd h (hfailed _)⟩
      | ok r =>
          exact ⟨hR.refl u, fun next h =>
            ⟨r.2, (Except.ok.inj h).symm, hthrow u className r.1 r.2 hs⟩⟩

/-- An action that does not branch goes on along the path. If it fails, what was done
    before is done. -/
theorem advance_follows (henv : env.Conforms k) (a : Action)
    (ha : ∀ o notNull, a ≠ .resolve o (.any notNull)) (u : Session) :
    let r := (a.advance env).runOn u
    Follows k u r.2 ∧ ∀ next, r.1 = .ok next → ∃ s, next = [s] ∧ Follows k u ⟨s, r.2.journal⟩ :=
  advance_obeys (Follows.composes k) (perform_follows henv) evaluate_follows
    (fun u x _ => .returnValue x (.refl u)) (fun u type _ _ => .throwException type (.refl u))
    a ha u

/-- Reading origins changes nothing. -/
theorem mapM_originAt_run (texts : List String) (u : Session) :
    ∃ r, (texts.mapM originAt).runOn u = (r, u) := by
  induction texts with
  | nil => exact ⟨_, rfl⟩
  | cons text rest ih =>
      rw [List.mapM_cons, TraceM.runOn_bind]
      obtain ⟨r, hr⟩ := originAt_run text u
      obtain ⟨r', hr'⟩ := ih
      rw [hr]
      cases r with
      | error e => exact ⟨_, rfl⟩
      | ok o =>
          rw [andThen_ok, TraceM.runOn_bind, hr']
          cases r' with
          | error e => exact ⟨_, rfl⟩
          | ok os => exact ⟨_, rfl⟩

/-- A path that branches is only read; its successors are copies of it in which the
    reference is resolved, or there are none. -/
theorem split_follows (k : Conduct) (env : Environment Failure) (origin : String)
    (notNull : List String) (u : Session) :
    let r := (split env origin notNull).runOn u
    ∃ s, Follows k u ⟨s, u.journal⟩ ∧ r.2.state = s ∧ ∀ next, r.1 = .ok next → next = [] ∨
      ∃ ref origins cs j j', Given u.state ref s ∧ env.candidates s ref origins = .ok cs ∧
        env.branch s ref cs j = (.ok next, j') := by
  have hfailed : ∀ {next : List PathState} (e : StepError), Except.error e ≠ .ok next :=
    fun _ => by simp only [ne_eq, reduceCtorEq, not_false_eq_true]
  unfold split
  rw [TraceM.runOn_bind]
  rcases symbolicAt_cases k origin u with ⟨e, s, hrun, hfollows⟩ | ⟨ref, s, hrun, hgiven⟩
  · rw [hrun]
    exact ⟨s, hfollows, rfl, fun _ h => absurd h (hfailed e)⟩
  · refine ⟨s, hgiven.follows, ?_⟩
    obtain ⟨r, hr⟩ := mapM_originAt_run notNull ⟨s, u.journal⟩
    rw [hrun, andThen_ok, TraceM.runOn_bind, hr]
    cases r with
    | error e => exact ⟨rfl, fun _ h => absurd h (hfailed e)⟩
    | ok origins =>
        simp only [andThen_ok, TraceM.runOn_bind, TraceM.runOn_state, TraceM.runOn_ofExcept]
        cases hcandidates : env.candidates s ref origins with
        | error e => exact ⟨rfl, fun _ h => absurd h (hfailed _)⟩
        | ok cs =>
            simp only [Except.mapError, andThen_ok, TraceM.runOn_get, TraceM.runOn_modify]
            rcases hbranch : env.branch s ref cs u.journal with ⟨e | next, j'⟩
            · simp only
              split
              · exact ⟨rfl, fun next h => .inl (Except.ok.inj h).symm⟩
              · exact ⟨rfl, fun _ h => absurd h (hfailed _)⟩
            · refine ⟨rfl, fun next' h => .inr ⟨ref, origins, cs, u.journal, j', hgiven,
                hcandidates, ?_⟩⟩
              rw [← Except.ok.inj h]
              exact hbranch

end Action

section Rounds

variable {env : Environment Failure} {step : Step} {s : PathState} {paths next : List PathState}
  {j j' : Journal}

/-- One path after the other is taken through a step, and those that have ended stay. -/
theorem Step.executeEach_cons (h : step.executeEach env (s :: paths) j = (.ok next, j')) :
    ∃ first j₁ others, next = first ++ others ∧ step.executeEach env paths j₁ = (.ok others, j') ∧
      ((s.status = .active ∧ ∃ v, (step.execute env).runOn ⟨s, j⟩ = (.ok first, v) ∧
          v.journal = j₁) ∨
        (s.status ≠ .active ∧ first = [s] ∧ j₁ = j)) := by
  unfold Step.executeEach at h
  split at h
  rename_i r j₁ hstep
  cases r with
  | error e => cases (Prod.mk.inj h).1
  | ok first =>
      dsimp only at h
      rcases hothers : step.executeEach env paths j₁ with ⟨e | others, j₂⟩
      · rw [hothers] at h
        cases (Prod.mk.inj h).1
      · rw [hothers] at h
        obtain ⟨hnext, rfl⟩ := Prod.mk.inj h
        refine ⟨first, j₁, others, (Except.ok.inj hnext).symm, hothers, ?_⟩
        by_cases hactive : s.status = .active
        · rw [if_pos (beq_iff_eq.2 hactive)] at hstep
          obtain ⟨hfirst, hjournal⟩ := Prod.mk.inj hstep
          exact .inl ⟨hactive, _, Prod.ext hfirst rfl, hjournal⟩
        · rw [if_neg fun hc => hactive (beq_iff_eq.1 hc)] at hstep
          obtain ⟨hfirst, rfl⟩ := Prod.mk.inj hstep
          exact .inr ⟨hactive, (Except.ok.inj hfirst).symm, rfl⟩

theorem executeSteps_cons {i : Nat} {rest : List Step} {finals : List PathState}
    (h : executeSteps env i (step :: rest) paths j = (.ok finals, j')) :
    ∃ next j₁, step.executeEach env paths j = (.ok next, j₁) ∧
      executeSteps env (i + 1) rest next j₁ = (.ok finals, j') := by
  unfold executeSteps at h
  rcases hround : step.executeEach env paths j with ⟨e | next, j₁⟩
  · rw [hround] at h
    cases (Prod.mk.inj h).1
  · rw [hround] at h
    exact ⟨next, j₁, rfl, h⟩

/-- A step does its action, or the action applied a step to null and the path ends with an
    exception where it is. -/
theorem Step.execute_ok {u v : Session} (h : (step.execute env).runOn u = (.ok next, v)) :
    (step.action.advance env).runOn u = (.ok next, v) ∨
      ∃ e w target s, (step.action.advance env).runOn u = (.error e, w) ∧
        w.state.throwException nullPointerException = .ok (target, s) ∧ next = [s] := by
  unfold Step.execute TraceM.runOn at h
  rw [run_tryCatch] at h
  rcases hadvance : (StateT.run (ExceptT.run (step.action.advance env)) u :
    Except StepError (List PathState) × Session) with ⟨e | paths, w⟩
  · rw [hadvance] at h
    dsimp only at h
    split at h
    · have h : TraceM.runOn (_ : TraceM StepError (List PathState)) w = (.ok next, v) := h
      simp only [TraceM.runOn_bind, TraceM.runOn_state, andThen_ok, TraceM.runOn_record,
        TraceM.runOn_ofExcept] at h
      cases hthrow : w.state.throwException nullPointerException with
      | error e' =>
          rw [hthrow] at h
          cases (Prod.mk.inj h).1
      | ok r =>
          rw [hthrow] at h
          exact .inr ⟨e, w, r.1, r.2, hadvance, hthrow, (Except.ok.inj (Prod.mk.inj h).1).symm⟩
    · cases (Prod.mk.inj h).1
  · rw [hadvance] at h
    exact .inl (hadvance.trans h)

/-- A script ends with what its steps lead to. -/
theorem Script.execute_ok {script : Script} {entry : PathState} {finals : List PathState}
    (h : script.execute env entry j = (.ok finals, j')) :
    executeSteps env 0 script.steps [entry] j = (.ok finals, j') := by
  unfold Script.execute at h
  rcases hsteps : executeSteps env 0 script.steps [entry] j with ⟨e | paths, j₁⟩
  · rw [hsteps] at h
    cases (Prod.mk.inj h).1
  · rw [hsteps] at h
    dsimp only at h
    split at h
    · cases (Prod.mk.inj h).1
    · exact h

end Rounds

/-- What a step makes of a path: paths that go on from it and differ from each other. -/
structure Splits (G D : PathState → PathState → Prop) (s : PathState)
    (next : List PathState) : Prop where
  goes : ∀ s' ∈ next, G s s'
  differ : next.Pairwise D

section Splits

variable {env : Environment Failure} {G D : PathState → PathState → Prop}
  {paths finals next : List PathState} {j j' : Journal}

theorem Splits.none (s : PathState) : Splits G D s [] :=
  ⟨fun _ h => absurd h List.not_mem_nil, List.Pairwise.nil⟩

theorem Splits.single {s s' : PathState} (h : G s s') : Splits G D s [s'] :=
  ⟨fun t ht => by rw [List.mem_singleton.1 ht]; exact h, List.pairwise_singleton _ _⟩

/-- A step on all paths. Paths that come from different ones go on differing from each
    other. -/
theorem Step.executeEach_splits {step : Step}
    (hmono : ∀ s s' t t', D s t → G s s' → G t t' → D s' t')
    (hrefl : ∀ s ∈ paths, G s s)
    (hstep : ∀ s ∈ paths, ∀ j first v, (step.execute env).runOn ⟨s, j⟩ = (.ok first, v) →
      Splits G D s first)
    (hdiffer : paths.Pairwise D) (hrun : step.executeEach env paths j = (.ok next, j')) :
    next.Pairwise D ∧ ∀ s' ∈ next, ∃ s ∈ paths, G s s' := by
  induction paths generalizing j j' next with
  | nil =>
      rw [← Except.ok.inj (Prod.mk.inj hrun).1]
      exact ⟨List.Pairwise.nil, fun s' hs' => absurd hs' List.not_mem_nil⟩
  | cons s rest ih =>
      obtain ⟨hfirst, hrest⟩ := List.pairwise_cons.1 hdiffer
      obtain ⟨first, j₁, others, rfl, hothers, hexecuted⟩ := Step.executeEach_cons hrun
      have hsplits : Splits G D s first := by
        rcases hexecuted with ⟨-, v, hexecute, -⟩ | ⟨-, rfl, -⟩
        · exact hstep s List.mem_cons_self j first v hexecute
        · -- A path that has ended is its own only branch.
          exact .single (hrefl s List.mem_cons_self)
      obtain ⟨hpairwise, hgoes⟩ := ih (fun t ht => hrefl t (List.mem_cons_of_mem s ht))
        (fun t ht => hstep t (List.mem_cons_of_mem s ht)) hrest hothers
      refine ⟨List.pairwise_append.2 ⟨hsplits.differ, hpairwise, fun s' hs' t' ht' => ?_⟩,
        fun s' hs' => ?_⟩
      · obtain ⟨t, ht, htt'⟩ := hgoes t' ht'
        exact hmono s s' t t' (hfirst t ht) (hsplits.goes s' hs') htt'
      · rcases List.mem_append.1 hs' with hs' | hs'
        · exact ⟨s, List.mem_cons_self, hsplits.goes s' hs'⟩
        · obtain ⟨t, ht, hts'⟩ := hgoes s' hs'
          exact ⟨t, List.mem_cons_of_mem s ht, hts'⟩

/-- All steps of a script, on all paths. What the steps need of a path has to be kept
    along it. -/
theorem executeSteps_splits {P : PathState → Prop}
    (htrans : ∀ s t u, G s t → G t u → G s u)
    (hmono : ∀ s s' t t', D s t → G s s' → G t t' → D s' t')
    (hrefl : ∀ s, P s → G s s) (hkeeps : ∀ s t, P s → G s t → P t)
    (hstep : ∀ (step : Step) s, P s → ∀ j first v,
      (step.execute env).runOn ⟨s, j⟩ = (.ok first, v) → Splits G D s first)
    {i : Nat} {steps : List Step} (hpaths : ∀ s ∈ paths, P s) (hdiffer : paths.Pairwise D)
    (hrun : executeSteps env i steps paths j = (.ok finals, j')) :
    finals.Pairwise D ∧ ∀ s' ∈ finals, ∃ s ∈ paths, G s s' := by
  induction steps generalizing i paths j with
  | nil =>
      rw [← Except.ok.inj (Prod.mk.inj hrun).1]
      exact ⟨hdiffer, fun s hs => ⟨s, hs, hrefl s (hpaths s hs)⟩⟩
  | cons step rest ih =>
      obtain ⟨next, j₁, hround, hrest⟩ := executeSteps_cons hrun
      obtain ⟨hpairwise, hgoes⟩ := step.executeEach_splits hmono
        (fun s hs => hrefl s (hpaths s hs)) (fun s hs => hstep step s (hpaths s hs)) hdiffer hround
      have hnext : ∀ t ∈ next, P t := by
        intro t ht
        obtain ⟨s, hs, hst⟩ := hgoes t ht
        exact hkeeps s t (hpaths s hs) hst
      obtain ⟨hfinals, hlast⟩ := ih hnext hpairwise hrest
      refine ⟨hfinals, fun s' hs' => ?_⟩
      obtain ⟨t, ht, hts'⟩ := hlast s' hs'
      obtain ⟨s, hs, hst⟩ := hgoes t ht
      exact ⟨s, hs, htrans s t s' hst hts'⟩

end Splits

end PathWitness
