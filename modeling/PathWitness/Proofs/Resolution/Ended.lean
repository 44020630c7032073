import Mathlib.Data.List.Forall2
import PathWitness.Proofs.PathState.Reachable
import PathWitness.Scenario.Execution

/-!
# Paths That Have Ended

A path ends when it returns or throws, or when its state is frozen, and a state that is not
needed any more is released. From then on nothing changes it, whatever is asked of it and
however often. Each operation checks this in a place of its own: resolving a reference only
after it has looked whether the reference is resolved already, reading only where it would
create an element, firing a rule when the rule is noted to have fired. Branching does not
touch the state, since the successors are copies.

That no method of a rule runs on such a state is said through what methods could do there:
two environments whose methods do the same on active paths cannot be told apart, so it does
not matter what a method would do on any other path.

## Main definitions

* `PathState.Ended`: The states of paths that have ended.
* `Operation.perform`: What can be asked of a state.
* `performAll`: A sequence of requests, none of which stops the others.
* `Environment.AgreeOnActive`, `Request.Agrees`: Methods that do the same on active paths.
* `Request.Refused`: A request that fails because the state cannot be read.

## Theorems

* `Ended.status`: A path that has ended is not active.
* `perform_of_ended`: No operation changes the state of a path that has ended.
* `perform_of_released`: What cannot be asked of a released state.
* `AgreeOnActive.fire`: Methods run on active paths only.
* `ended_immutable`: A path that has ended stays as it is.
-/

namespace PathWitness

variable {τ : Type}

/-- What can be asked of the state of a path. -/
inductive Operation where
  | resolve (ref : RefSymbol) (c : Candidate)
  | candidates (ref : RefSymbol) (notNull : List Origin)
  | branch (ref : RefSymbol) (cs : List Candidate)
  | lookup (o : Origin)
  | returnValue (v : Option Value)
  | throwException (type : String)
  | freeze
  | markFired (key : String)
  | fireMatching (o : Origin) (className : String) (kind : TriggerKind) (target : Target)

/-- What an operation answers. -/
inductive Answer where
  | done
  | target (target : Target)
  | candidates (cs : List Candidate)
  | successors (states : List PathState)
  | value (v : Option Value)
  | fired (count : Nat)

namespace Operation

/-- Performs an operation on a session. -/
def perform [Fault τ] (env : Environment τ) : Operation → TraceM Failure Answer
  | resolve ref c => do
    return .target (← (env.resolve ref c).mapError .ofFault)
  | candidates ref notNull => do
    return .candidates
      (← TraceM.ofExcept .ofFault (env.candidates (← TraceM.state) ref notNull))
  | branch ref cs => do
    let u ← get
    let outcome := env.branch u.state ref cs u.journal
    modify fun u => { u with journal := outcome.2 }
    return .successors (← TraceM.ofExcept .ofFault outcome.1)
  | lookup o => do
    return .value (← TraceM.ofPath .ofFault (PathState.lookup o))
  | returnValue v => do
    TraceM.setState (← TraceM.ofExcept .ofFault ((← TraceM.state).returnValue v))
    return .done
  | throwException type => do
    let thrown ← TraceM.ofExcept .ofFault ((← TraceM.state).throwException type)
    TraceM.setState thrown.2
    return .target thrown.1
  | freeze => do
    TraceM.setState (← TraceM.state).freeze
    return .done
  | markFired key => do
    TraceM.setState (← TraceM.ofExcept .ofFault ((← TraceM.state).markFired key))
    return .done
  | fireMatching o className kind target => do
    return .fired (← (env.fireMatching o className kind target).mapError .ofFault)

/-- The operation needs a state that can be read. -/
def needsReading : Operation → Bool
  | branch _ cs => !cs.isEmpty
  | freeze | markFired _ | fireMatching _ _ _ _ => false
  | _ => true

end Operation

/-- Environments that are the same but for what methods do on paths that are not active. -/
structure Environment.AgreeOnActive (env env' : Environment τ) : Prop where
  classes : env'.classes = env.classes
  rules : env'.rules = env.rules
  invoke : Option.Rel (fun invoke invoke' => ∀ method target parameter (u : Session),
    u.state.status = .active →
      (invoke' method target parameter).runOn u = (invoke method target parameter).runOn u)
    env.invoke env'.invoke

/-- An operation and the environment it is performed in. -/
structure Request (τ : Type) where
  env : Environment τ
  operation : Operation

/-- The same operation, in environments that are the same but for what methods do on paths
    that are not active. -/
def Request.Agrees (r r' : Request τ) : Prop :=
  r.env.AgreeOnActive r'.env ∧ r'.operation = r.operation

/-- What needs a state that can be read fails because there is none. -/
def Request.Refused (r : Request τ) (answer : Except Failure Answer) : Prop :=
  r.operation.needsReading = true → ∃ e, answer = .error e ∧ e.kind = .unreadable

/-- Performs requests one after another on a session, whether or not they fail, and gives all
    of their answers. -/
def performAll [Fault τ] : List (Request τ) → Session → List (Except Failure Answer) × Session
  | [], u => ([], u)
  | r :: rest, u =>
    let first := (r.operation.perform r.env).runOn u
    let others := performAll rest first.2
    (first.1 :: others.1, others.2)

namespace PathState

variable {s : PathState}

/-- The states of paths that have ended, and released states. -/
inductive Ended : PathState → Prop where
  | returned {s t : PathState} {v : Option Value} (h : s.returnValue v = .ok t) : Ended t
  | thrown {s t : PathState} {type : String} {target : Target}
      (h : s.throwException type = .ok (target, t)) : Ended t
  | frozen (s : PathState) : Ended s.freeze
  | released (s : PathState) : Ended s.release

theorem freeze_status (s : PathState) : s.freeze.status ≠ .active := by
  unfold freeze
  split
  · simp
  · assumption

/-- A path that has ended is not active. -/
theorem Ended.status (h : s.Ended) : s.status ≠ .active := by
  cases h with
  | returned h =>
      obtain ⟨_, -, hfrozen⟩ := bind_eq_ok h
      rw [← Except.ok.inj hfrozen]
      exact freeze_status _
  | thrown h =>
      rw [throwException_eq_ok h]
      exact freeze_status _
  | frozen s => exact freeze_status s
  | released s => simp [release]

theorem checkActive_of_ended (h : s.status ≠ .active) : ∃ e, s.checkActive = .error e := by
  unfold checkActive
  split
  · exact absurd ‹_› h
  · exact ⟨_, rfl⟩
  · exact ⟨_, rfl⟩

theorem freeze_of_ended (h : s.status ≠ .active) : s.freeze = s := by
  unfold freeze
  split
  · exact absurd ‹_› h
  · rfl

end PathState

namespace TraceM

variable {ε α : Type} {m m' : TraceM ε α}

/-- Computations that do the same on every session are equal. -/
theorem ext (h : ∀ u, m.runOn u = m'.runOn u) : m = m' :=
  funext h

end TraceM

namespace Environment

variable {env env' : Environment τ} {u : Session}

/-- A reference that is not resolved yet cannot be resolved any more. -/
theorem resolve_of_ended (h : u.state.status ≠ .active) (ref : RefSymbol) (c : Candidate) :
    ((env.resolve ref c).runOn u).2 = u := by
  obtain ⟨e, he⟩ := PathState.checkActive_of_ended h
  unfold resolve
  simp only [TraceM.runOn_bind, TraceM.runOn_state, andThen_ok, TraceM.runOn_ofExcept]
  cases u.state.checkReadable with
  | error e => rfl
  | ok _ =>
      simp only [Except.mapError, andThen_ok]
      cases u.state.condition.resolution? ref.number with
      | some r => rfl
      | none =>
          simp only [TraceM.runOn_bind, TraceM.runOn_ofExcept, he]
          rfl

/-- Rules cannot be noted to have fired, so they do not fire. -/
theorem fireEach_of_ended (h : u.state.status ≠ .active) (o : Origin) (target : Target)
    (rules : List Rule) : ((env.fireEach o target rules).runOn u).2 = u := by
  obtain ⟨e, he⟩ := PathState.checkActive_of_ended h
  induction rules with
  | nil => rfl
  | cons rule rest ih =>
      unfold fireEach
      simp only [TraceM.runOn_bind, TraceM.runOn_state, andThen_ok]
      by_cases hfired : u.state.hasFired (rule.firingKey o target) = true
      · rw [if_pos hfired]
        exact ih
      · have hfire : ((env.fire rule o target).runOn u) = (.error (.access e), u) := by
          unfold fire
          simp only [TraceM.runOn_bind, TraceM.runOn_state, andThen_ok, if_neg hfired,
            TraceM.runOn_ofExcept, PathState.markFired, he]
          rfl
        rw [if_neg hfired, TraceM.runOn_bind, hfire]
        rfl

namespace AgreeOnActive

/-- A method runs after its rule is noted to have fired, which is only done on an active
    path. -/
theorem fire (h : AgreeOnActive env env') (rule : Rule) (o : Origin) (target : Target) :
    env'.fire rule o target = env.fire rule o target := by
  refine TraceM.ext fun u => ?_
  unfold Environment.fire
  simp only [TraceM.runOn_bind, TraceM.runOn_state, andThen_ok]
  by_cases hfired : u.state.hasFired (rule.firingKey o target) = true
  · rw [if_pos hfired, if_pos hfired]
    rfl
  simp only [if_neg hfired, TraceM.runOn_bind, TraceM.runOn_ofExcept, PathState.markFired]
  by_cases hactive : u.state.status = .active
  · have hcheck : u.state.checkActive = .ok () := by simp only [PathState.checkActive, hactive]
    have hinvoke := h.invoke
    simp only [hcheck]
    generalize env.invoke = invoke, env'.invoke = invoke' at hinvoke
    cases hinvoke with
    | none => rfl
    | some hsame =>
        change (TraceM.mapError _ _).runOn (u.noteFired rule o target)
          = (TraceM.mapError _ _).runOn (u.noteFired rule o target)
        rw [TraceM.runOn_mapError, TraceM.runOn_mapError,
          hsame _ _ _ (u.noteFired rule o target) hactive]
  · obtain ⟨e, he⟩ := PathState.checkActive_of_ended hactive
    simp only [he]
    rfl

theorem fireEach (h : AgreeOnActive env env') (o : Origin) (target : Target)
    (rules : List Rule) : env'.fireEach o target rules = env.fireEach o target rules := by
  induction rules with
  | nil => rfl
  | cons rule rest ih =>
      unfold Environment.fireEach
      rw [ih, h.fire]

theorem fireMatching (h : AgreeOnActive env env') (o : Origin) (className : String)
    (kind : TriggerKind) (target : Target) :
    env'.fireMatching o className kind target = env.fireMatching o className kind target := by
  unfold Environment.fireMatching
  rw [h.rules, h.fireEach]

theorem fireFor (h : AgreeOnActive env env') (ref : RefSymbol) (className : String)
    (kind : TriggerKind) (target : Target) :
    env'.fireFor ref className kind target = env.fireFor ref className kind target := by
  unfold Environment.fireFor
  rw [h.fireMatching]

theorem resolve (h : AgreeOnActive env env') (ref : RefSymbol) (c : Candidate) :
    env'.resolve ref c = env.resolve ref c := by
  unfold Environment.resolve Environment.resolveNull Environment.resolveAlias
    Environment.resolveExpand Environment.expandObject
  simp only [h.fireFor, h.classes]

theorem candidates (h : AgreeOnActive env env') (s : PathState) (ref : RefSymbol)
    (notNull : List Origin) : env'.candidates s ref notNull = env.candidates s ref notNull := by
  unfold Environment.candidates Environment.aliasPositions
  rw [h.classes]

theorem successors (h : AgreeOnActive env env') (s : PathState) (ref : RefSymbol) (several : Bool)
    (i : Nat) (cs : List Candidate) (j : Journal) :
    env'.successors s ref several i cs j = env.successors s ref several i cs j := by
  induction cs generalizing i j with
  | nil => rfl
  | cons c rest ih =>
      have hsuccessor : env'.successor s ref several i c j = env.successor s ref several i c j := by
        unfold Environment.successor
        rw [h.resolve]
      unfold Environment.successors
      simp only [hsuccessor, ih]

theorem branch (h : AgreeOnActive env env') (s : PathState) (ref : RefSymbol)
    (cs : List Candidate) (j : Journal) : env'.branch s ref cs j = env.branch s ref cs j := by
  unfold Environment.branch
  rw [h.successors]

end AgreeOnActive

end Environment

namespace Operation

variable [Fault τ] {env : Environment τ} {u : Session}

/-- Putting an answer into its form does nothing else. -/
theorem answer_snd {α : Type} (m : TraceM Failure α) (answer : α → Answer) (u : Session) :
    ((m >>= fun a => pure (answer a) : TraceM Failure Answer).runOn u).2 = (m.runOn u).2 := by
  rw [TraceM.runOn_bind]
  rcases m.runOn u with ⟨e | a, v⟩ <;> rfl

/-- No operation changes the state of a path that has ended. -/
theorem perform_of_ended (h : u.state.status ≠ .active) (op : Operation) :
    ((op.perform env).runOn u).2.state = u.state := by
  obtain ⟨e, he⟩ := PathState.checkActive_of_ended h
  cases op with
  | resolve ref c =>
      rw [perform, answer_snd, TraceM.runOn_mapError]
      exact congrArg Session.state (env.resolve_of_ended h ref c)
  | candidates ref notNull =>
      rw [perform, TraceM.runOn_bind, TraceM.runOn_state, andThen_ok, answer_snd,
        TraceM.runOn_ofExcept]
  | branch ref cs =>
      rw [perform, TraceM.runOn_bind, TraceM.runOn_get, andThen_ok, TraceM.runOn_bind,
        TraceM.runOn_modify, andThen_ok, answer_snd, TraceM.runOn_ofExcept]
  | lookup o =>
      rw [perform, answer_snd, TraceM.runOn_ofPath]
      exact PathState.lookup_of_ended h o
  | returnValue v =>
      simp only [perform, TraceM.runOn_bind, TraceM.runOn_state, andThen_ok,
        TraceM.runOn_ofExcept, PathState.returnValue, he]
      rfl
  | throwException type =>
      simp only [perform, TraceM.runOn_bind, TraceM.runOn_state, andThen_ok,
        TraceM.runOn_ofExcept, PathState.throwException, he]
      rfl
  | freeze =>
      simp only [perform, TraceM.runOn_bind, TraceM.runOn_state, andThen_ok,
        TraceM.runOn_setState, PathState.freeze_of_ended h]
      rfl
  | markFired key =>
      simp only [perform, TraceM.runOn_bind, TraceM.runOn_state, andThen_ok,
        TraceM.runOn_ofExcept, PathState.markFired, he]
      rfl
  | fireMatching o className kind target =>
      rw [perform, answer_snd, TraceM.runOn_mapError]
      exact congrArg Session.state (env.fireEach_of_ended h o target _)

/-- Most operations need a state that can be read. -/
theorem perform_of_released (h : u.state.status = .released) {op : Operation}
    (hop : op.needsReading = true) :
    ∃ e, ((op.perform env).runOn u).1 = .error e ∧ e.kind = .unreadable := by
  have hactive : u.state.checkActive = .error (.unreadable u.state.id) := by
    simp only [PathState.checkActive, h]
  have hreadable : u.state.checkReadable = .error (.unreadable u.state.id) := by
    simp only [PathState.checkReadable, h]
  cases op with
  | resolve ref c =>
      simp only [perform, TraceM.runOn_bind, TraceM.runOn_mapError, Environment.resolve,
        TraceM.runOn_state, andThen_ok, TraceM.runOn_ofExcept, hreadable]
      exact ⟨_, rfl, rfl⟩
  | candidates ref notNull =>
      simp only [perform, TraceM.runOn_bind, TraceM.runOn_state, andThen_ok,
        TraceM.runOn_ofExcept, Environment.candidates, hreadable]
      exact ⟨_, rfl, rfl⟩
  | branch ref cs =>
      cases cs with
      | nil => cases hop
      | cons c rest =>
          simp only [perform, TraceM.runOn_bind, TraceM.runOn_get, andThen_ok,
            TraceM.runOn_modify, TraceM.runOn_ofExcept, Environment.branch,
            Environment.successors, Environment.successor, PathState.copy, hreadable]
          exact ⟨_, rfl, rfl⟩
  | lookup o =>
      simp only [perform, TraceM.runOn_bind, TraceM.runOn_ofPath, PathState.runOn_lookup,
        hreadable]
      exact ⟨_, rfl, rfl⟩
  | returnValue v =>
      simp only [perform, TraceM.runOn_bind, TraceM.runOn_state, andThen_ok,
        TraceM.runOn_ofExcept, PathState.returnValue, hactive]
      exact ⟨_, rfl, rfl⟩
  | throwException type =>
      simp only [perform, TraceM.runOn_bind, TraceM.runOn_state, andThen_ok,
        TraceM.runOn_ofExcept, PathState.throwException, hactive]
      exact ⟨_, rfl, rfl⟩
  | freeze => cases hop
  | markFired key => cases hop
  | fireMatching o className kind target => cases hop

/-- Operations cannot tell environments apart whose methods do the same on active paths. -/
theorem perform_agree {env' : Environment τ} (h : env.AgreeOnActive env') (op : Operation) :
    op.perform env' = op.perform env := by
  cases op with
  | resolve ref c => simp only [perform, h.resolve]
  | candidates ref notNull => simp only [perform, h.candidates]
  | branch ref cs => simp only [perform, h.branch]
  | fireMatching o className kind target => simp only [perform, h.fireMatching]
  | _ => rfl

end Operation

section Sequences

variable [Fault τ] {requests requests' : List (Request τ)} {u : Session}

theorem performAll_of_ended (requests : List (Request τ)) (u : Session)
    (h : u.state.status ≠ .active) : (performAll requests u).2.state = u.state := by
  induction requests generalizing u with
  | nil => rfl
  | cons r rest ih =>
      have hfirst : ((r.operation.perform r.env).runOn u).2.state = u.state :=
        r.operation.perform_of_ended h
      exact (ih _ (by rw [hfirst]; exact h)).trans hfirst

theorem performAll_agree (h : List.Forall₂ Request.Agrees requests requests') (u : Session) :
    performAll requests' u = performAll requests u := by
  induction h generalizing u with
  | nil => rfl
  | cons hfirst _ ih =>
      simp only [performAll, hfirst.2, Operation.perform_agree hfirst.1, ih]

theorem performAll_of_released (requests : List (Request τ)) (u : Session)
    (h : u.state.status = .released) :
    List.Forall₂ Request.Refused requests (performAll requests u).1 := by
  induction requests generalizing u with
  | nil => exact .nil
  | cons r rest ih =>
      refine .cons (r.operation.perform_of_released h) (ih _ ?_)
      rw [r.operation.perform_of_ended (by simp [h])]
      exact h

end Sequences

/-- A path that has ended stays as it is, whatever is asked of its state. No method of a rule
    runs on it, so it does not matter what methods would do on paths that are not active.
    Of a released state nothing can be asked that needs a state to be read. -/
theorem ended_immutable [Fault τ] {s : PathState} (hs : s.Ended) (j : Journal)
    (requests : List (Request τ)) :
    s.status ≠ .active ∧ (performAll requests ⟨s, j⟩).2.state = s ∧
      (∀ requests', List.Forall₂ Request.Agrees requests requests' →
        performAll requests' ⟨s, j⟩ = performAll requests ⟨s, j⟩) ∧
      (s.status = .released →
        List.Forall₂ Request.Refused requests (performAll requests ⟨s, j⟩).1) :=
  ⟨hs.status, performAll_of_ended requests ⟨s, j⟩ hs.status,
    fun _ hagree => performAll_agree hagree ⟨s, j⟩, performAll_of_released requests ⟨s, j⟩⟩

/-- Whenever the list is null a method runs, which may do harm to a path that has ended. -/
def nullEnvironment (harm : TraceM Failure Unit) : Environment Failure where
  classes := nodeClasses
  rules := ⟨[⟨0, .nulls, .ofRoot "list", "", ⟨"Search", "()V", "reset"⟩, ""⟩]⟩
  invoke := some fun _ _ _ => do
    if (← TraceM.state).status = .active then pure () else harm

/-- Everything that can be asked about a list that is null. -/
def nullRequests (harm : TraceM Failure Unit) : List (Request Failure) :=
  [.fireMatching (.ofRoot "list") "" .nulls .null, .lookup ⟨"keys", [.index "4"]⟩,
    .resolve ⟨0, "LNode;", .ofRoot "list"⟩ .null, .candidates ⟨0, "LNode;", .ofRoot "list"⟩ [],
    .branch ⟨0, "LNode;", .ofRoot "list"⟩ [.null, .expand ""], .markFired "0", .freeze,
    .returnValue none, .throwException "Failed"].map fun op => ⟨nullEnvironment harm, op⟩

theorem nullEnvironment_agree (harm harm' : TraceM Failure Unit) :
    (nullEnvironment harm).AgreeOnActive (nullEnvironment harm') where
  classes := rfl
  rules := rfl
  invoke := .some fun _ _ _ u hactive => by
    simp only [TraceM.runOn_bind, TraceM.runOn_state, andThen_ok, if_pos hactive]

theorem nullRequests_agree (harm harm' : TraceM Failure Unit) :
    List.Forall₂ Request.Agrees (nullRequests harm) (nullRequests harm') := by
  refine List.forall₂_map_left_iff.2 (List.forall₂_map_right_iff.2 (List.forall₂_same.2 ?_))
  exact fun _ _ => ⟨nullEnvironment_agree harm harm', rfl⟩

/-- On the path as it was entered the rule fires. When the path has ended it does not, and
    nothing comes of a method that would start the path again. -/
theorem ended_immutable_null :
    (performAll (nullRequests (pure ())) ⟨searchEntry, []⟩).2.state.fired.length = 2 ∧
      searchEntry.freeze.Ended ∧
      (performAll (nullRequests (TraceM.setState searchEntry)) ⟨searchEntry.freeze, []⟩).2.state
        = searchEntry.freeze ∧
      performAll (nullRequests (pure ())) ⟨searchEntry.freeze, []⟩
        = performAll (nullRequests (TraceM.setState searchEntry)) ⟨searchEntry.freeze, []⟩ ∧
      List.Forall₂ Request.Refused (nullRequests (pure ()))
        (performAll (nullRequests (pure ())) ⟨searchEntry.release, []⟩).1 := by
  obtain ⟨-, hstays, hsame, -⟩ := ended_immutable (.frozen searchEntry) []
    (nullRequests (TraceM.setState searchEntry))
  obtain ⟨-, -, -, hreleased⟩ := ended_immutable (.released searchEntry) []
    (nullRequests (pure ()))
  exact ⟨by decide +kernel, .frozen _, hstays, hsame _ (nullRequests_agree _ _), hreleased rfl⟩

end PathWitness
