import PathWitness.Proofs.Obeys
import PathWitness.Proofs.Resolution.Outcome

/-!
# What Resolving References Keeps

Resolving a reference changes the state, writes to the journal, and runs the
methods of rules, which may resolve further references. A relation between
sessions that all changes of a state and all words of the journal obey is obeyed
by resolving, if the firing of rules obeys it. So what holds along a path is
shown for single changes and for the firing of one rule.

All relations here are looked at under the assumption that the first state is
coherent, and say that the last one is. What the methods of rules do is a
parameter: they obey the relation too.

## Main definitions

* `Under`: A relation between sessions whose states are coherent.
* `Tolerates`: A relation that changes and words obey.
* `Session.noteFired`: A rule is noted to have fired.
* `Environment.InvokeObeys`: The methods of rules obey a relation.
* `TraceM.KeepsAt`: A computation leaves a coherent state.

## Theorems

* `Tolerates.changes`: Any number of changes.
* `fire_cases`: What firing a rule does.
* `successors_cons`: One successor after the other is made.
* `fireEach_of_fire`: Firing rules.
* `resolve_obeys`: Resolving a reference in any way.
* `resolve_keepsAt`: Resolving a reference keeps the state coherent.
-/

namespace PathWitness

open PathState (Kept)

variable {classes : ClassTable} {may : PathState → Term → Prop} {ε α τ : Type}
  {Q : Session → Session → Prop} {u v : Session}

/-- One more assumption whose resolutions fit, whether it is made or refused. -/
theorem PathState.Kept.assume {s : PathState} (a : Assumption)
    (hfits : ∀ ref how, .resolve ref how ∈ a.clauses →
      .ref ref ∈ s.symbols.symbols ∧ Fits classes s.heap ref how) :
    Kept classes s { s with condition := (a.make.runOn s.condition).2 } := by
  rcases a.make_cases s.condition with ⟨e, he⟩ | ⟨pc', hok, hgrown⟩
  · rw [he]
    exact .refl classes s
  · rw [hok]
    exact fun h => ⟨⟨h.readable, h.parts.assumed hgrown hfits⟩, List.prefix_refl _⟩

/-- From a coherent state, the state stays coherent and the sessions are
    related. -/
def Under (classes : ClassTable) (Q : Session → Session → Prop) (u v : Session) : Prop :=
  u.state.Coherent classes →
    (v.state.Coherent classes ∧ u.state.symbols.symbols <+: v.state.symbols.symbols) ∧ Q u v

theorem Composes.under (hQ : Composes Q) : Composes (Under classes Q) where
  refl := fun u hu => ⟨⟨hu, List.prefix_refl _⟩, hQ.refl u⟩
  trans := fun huv hvw hu => by
    obtain ⟨⟨hv, hsymbols⟩, hquv⟩ := huv hu
    obtain ⟨⟨hw, hsymbols'⟩, hqvw⟩ := hvw hv
    exact ⟨⟨hw, hsymbols.trans hsymbols'⟩, hQ.trans hquv hqvw⟩

/-- A relation that changes of a state and words of the journal obey. -/
structure Tolerates (classes : ClassTable) (may : PathState → Term → Prop)
    (Q : Session → Session → Prop) : Prop extends Composes Q where
  change : ∀ {u s}, u.state.Coherent classes → Change classes may u.state s → Q u ⟨s, u.journal⟩
  told : ∀ {u e}, u.state.Coherent classes → e.firing? = none → Q u ⟨u.state, e :: u.journal⟩

namespace Tolerates

variable (hQ : Tolerates classes may Q)

include hQ

theorem changes {s : PathState} (h : Changes classes may u.state s) :
    Under classes Q u ⟨s, u.journal⟩ := by
  intro hu
  refine ⟨h.kept hu, ?_⟩
  induction h with
  | refl => exact hQ.refl u
  | @tail s₁ s₂ hold hnew ih =>
      exact hQ.trans ih (hQ.change (u := ⟨s₁, u.journal⟩) ((Changes.kept hold) hu).1 hnew)

theorem under_told {e : Event} (he : e.firing? = none) :
    Under classes Q u ⟨u.state, e :: u.journal⟩ :=
  fun hu => ⟨⟨hu, List.prefix_refl _⟩, hQ.told hu he⟩

end Tolerates

/-- If only coherence is asked for, any two sessions are related. -/
theorem Tolerates.always (classes : ClassTable) (may : PathState → Term → Prop) :
    Tolerates classes may fun _ _ => True where
  refl := fun _ => trivial
  trans := fun _ _ => trivial
  change := fun _ _ => trivial
  told := fun _ _ => trivial

/-- A rule is noted to have fired on a target. -/
def Session.noteFired (u : Session) (rule : Rule) (o : Origin) (target : Target) : Session :=
  ⟨{ u.state with fired := rule.firingKey o target :: u.state.fired },
    .fired rule target :: u.journal⟩

namespace Environment

variable {env : Environment τ}

/-- The methods of rules obey a relation. -/
def InvokeObeys (R : Session → Session → Prop) (env : Environment τ) : Prop :=
  ∀ invoke, env.invoke = some invoke → ∀ method target parameter u,
    Obeys R u (invoke method target parameter)

/-- Methods that obey a relation keep the state coherent. -/
theorem InvokeObeys.always (h : env.InvokeObeys (Under classes Q)) :
    env.InvokeObeys (Under classes fun _ _ => True) :=
  fun invoke hsome method target parameter u hu =>
    ⟨(h invoke hsome method target parameter u hu).1, trivial⟩

/-- A rule is not fired, or it is noted to have fired and then its method runs,
    if there is a way to run it. -/
theorem fire_cases (env : Environment τ) (rule : Rule) (o : Origin) (target : Target)
    (u : Session) :
    (∃ e, (env.fire rule o target).runOn u = (.error e, u)) ∨
      rule.firingKey o target ∉ u.state.fired ∧
        ((env.invoke = none ∧
            ∃ e, (env.fire rule o target).runOn u = (.error e, u.noteFired rule o target)) ∨
          ∃ invoke, env.invoke = some invoke ∧ (env.fire rule o target).runOn u =
            ((invoke rule.method target rule.parameter).mapError (.trigger rule.method)).runOn
              (u.noteFired rule o target)) := by
  unfold fire
  simp only [TraceM.runOn_bind, TraceM.runOn_state, andThen_ok]
  by_cases hfired : u.state.hasFired (rule.firingKey o target) = true
  · simp only [hfired, if_true]
    exact .inl ⟨_, rfl⟩
  · simp only [hfired, Bool.false_eq_true, if_false, TraceM.runOn_bind, TraceM.runOn_ofExcept,
      PathState.markFired]
    have hkey : rule.firingKey o target ∉ u.state.fired := by
      rw [PathState.hasFired, List.contains_iff_mem] at hfired
      exact hfired
    cases u.state.checkActive with
    | error e => exact .inl ⟨_, rfl⟩
    | ok _ =>
        refine .inr ⟨hkey, ?_⟩
        cases hinvoke : env.invoke with
        | none => exact .inl ⟨rfl, _, rfl⟩
        | some invoke => exact .inr ⟨invoke, rfl, rfl⟩

/-- Firing a rule obeys what noting it obeys. -/
theorem fire_obeys (hQ : Composes Q) (hinvoke : env.InvokeObeys (Under classes Q)) {rule : Rule}
    {o : Origin} {target : Target} (hfired : rule.firingKey o target ∉ u.state.fired →
      Q u (u.noteFired rule o target)) : Obeys (Under classes Q) u (env.fire rule o target) := by
  -- Only the list of fired rules and the journal are written.
  have hnoted : rule.firingKey o target ∉ u.state.fired →
      Under classes Q u (u.noteFired rule o target) :=
    fun hkey hu => ⟨⟨⟨hu.readable, hu.parts⟩, List.prefix_refl _⟩, hfired hkey⟩
  change Under classes Q u ((env.fire rule o target).runOn u).2
  rcases env.fire_cases rule o target u with ⟨e, he⟩ | ⟨hkey, ⟨-, e, he⟩ | ⟨invoke, hsome, hrun⟩⟩
  · rw [he]
    exact hQ.under.refl u
  · rw [he]
    exact hnoted hkey
  · rw [hrun]
    exact hQ.under.trans (hnoted hkey)
      (TraceM.obeys_mapError (hinvoke invoke hsome _ _ _ _) _)

/-- Firing rules one after the other obeys what firing each of them obeys. -/
theorem fireEach_of_fire {R : Session → Session → Prop} (hR : Composes R) {o : Origin}
    {target : Target} (rules : List Rule)
    (hfire : ∀ v : Session, ∀ rule ∈ rules, Obeys R v (env.fire rule o target)) :
    Obeys R u (env.fireEach o target rules) := by
  induction rules generalizing u with
  | nil => exact .pure hR 0
  | cons rule rest ih =>
      have hrest : ∀ {w : Session}, Obeys R w (env.fireEach o target rest) :=
        ih fun v r hr => hfire v r (List.mem_cons_of_mem rule hr)
      unfold fireEach
      refine .bind hR (TraceM.obeys_state hR) fun s u' _ => ?_
      split
      · exact hrest
      · exact .bind hR (hfire u' rule List.mem_cons_self)
          fun _ _ _ => .bind hR hrest fun _ _ _ => .pure hR _

/-- Rules that wait for the resolution of a reference are about its origin. -/
theorem mem_matching {t : RuleTable} {o : Origin} {className : String} {kind : TriggerKind}
    {rule : Rule} (h : rule ∈ t.matching o className kind) :
    rule ∈ t.rules ∧ rule.origin.text = o.text := by
  obtain ⟨horigin, -⟩ := List.mem_filter.1 h
  obtain ⟨hrule, htext⟩ := List.mem_filter.1 horigin
  exact ⟨hrule, beq_iff_eq.1 htext⟩

theorem fireMatching_obeys (hQ : Composes Q) (hinvoke : env.InvokeObeys (Under classes Q))
    (hfired : ∀ (v : Session), ∀ rule ∈ env.rules.rules, ∀ o target, rule.origin.text = o.text →
      rule.firingKey o target ∉ v.state.fired → Q v (v.noteFired rule o target))
    (o : Origin) (className : String) (kind : TriggerKind) (target : Target) :
    Obeys (Under classes Q) u (env.fireMatching o className kind target) :=
  fireEach_of_fire hQ.under _ fun v rule hrule =>
    fire_obeys hQ hinvoke (hfired v rule (mem_matching hrule).1 o target (mem_matching hrule).2)

/-- Firing the rules that wait for a resolution. -/
theorem fireFor_obeys (hQ : Composes Q) (hinvoke : env.InvokeObeys (Under classes Q))
    (hfired : ∀ (v : Session), ∀ rule ∈ env.rules.rules, ∀ o target, rule.origin.text = o.text →
      rule.firingKey o target ∉ v.state.fired → Q v (v.noteFired rule o target))
    (ref : RefSymbol) (className : String) (kind : TriggerKind) (target : Target) :
    Obeys (Under classes Q) u (env.fireFor ref className kind target) :=
  .bind hQ.under (TraceM.obeys_mapError (fireMatching_obeys hQ hinvoke hfired _ _ _ _) _)
    fun _ _ _ => .pure hQ.under _

/-- A reference is resolved, this is written down, and the rules that wait for it
    fire. -/
theorem settled_obeys (hQ : Tolerates classes may Q) (hinvoke : env.InvokeObeys (Under classes Q))
    (hfired : ∀ (v : Session), ∀ rule ∈ env.rules.rules, ∀ o target, rule.origin.text = o.text →
      rule.firingKey o target ∉ v.state.fired → Q v (v.noteFired rule o target))
    {ref : RefSymbol} {c : Candidate} {how : Resolution} {s : PathState} {e : Event}
    (hsettles : Settles classes u.state ref c how s) (hquiet : e.firing? = none)
    (className : String) : Under classes Q u
      ((env.fireFor ref className how.kind how.target).runOn ⟨s, e :: u.journal⟩).2 := by
  have hsettled : Under classes Q u ⟨s, u.journal⟩ := hQ.changes (hsettles.changes may)
  have htold : Under classes Q ⟨s, u.journal⟩ ⟨s, e :: u.journal⟩ := hQ.under_told hquiet
  exact hQ.under.trans (hQ.under.trans hsettled htold)
    (fireFor_obeys hQ.toComposes hinvoke hfired ref className how.kind how.target)

/-- Resolving a reference obeys a relation that changes obey, if the relation
    holds when the rules that wait for the resolution have fired. -/
theorem resolve_obeys (hclasses : env.classes = classes) (hQ : Tolerates classes may Q)
    {ref : RefSymbol} (href : .ref ref ∈ u.state.symbols.symbols) (c : Candidate)
    (hfire : ∀ how s e className, Settles classes u.state ref c how s → e.firing? = none →
      (∀ p type, how = .fresh p type → className = type) → Under classes Q u
        ((env.fireFor ref className how.kind how.target).runOn ⟨s, e :: u.journal⟩).2) :
    Obeys (Under classes Q) u (env.resolve ref c) := by
  subst hclasses
  intro hu
  have houtcome := resolve_outcome hu href c
  have hunder : Under env.classes Q u ((env.resolve ref c).runOn u).2 := by
    generalize (env.resolve ref c).runOn u = outcome at houtcome ⊢
    cases houtcome with
    | known hclause => exact hQ.under.refl u
    | refused e => exact hQ.under.refl u
    | broken e hsettles => exact hQ.changes (hsettles.changes may)
    | @announced how s e className hsettles hquiet hclass =>
        have hall := hfire how s e className hsettles hquiet hclass
        rcases hlast : (env.fireFor ref className how.kind how.target).runOn ⟨s, e :: u.journal⟩
          with ⟨r | _, w⟩
        · rw [hlast] at hall
          exact hall
        · rw [hlast] at hall
          exact hall
  exact hunder hu

end Environment

/-- A computation that starts in a session leaves a coherent state with the
    symbols there were, whether it succeeds or fails. -/
def TraceM.KeepsAt (classes : ClassTable) (u : Session) (m : TraceM ε α) : Prop :=
  Kept classes u.state (m.runOn u).2.state

namespace Environment

variable {env : Environment τ}

/-- The methods of rules keep a path coherent. -/
def InvokeKeeps (classes : ClassTable) (env : Environment τ) : Prop :=
  ∀ invoke, env.invoke = some invoke → ∀ method target parameter (u : Session),
    TraceM.KeepsAt classes u (invoke method target parameter)

/-- Resolving a reference of the path in any way, and asking again for one that
    is resolved. -/
theorem resolve_keepsAt (hinvoke : env.InvokeKeeps env.classes) {ref : RefSymbol}
    (href : .ref ref ∈ u.state.symbols.symbols) (c : Candidate) :
    TraceM.KeepsAt env.classes u (env.resolve ref c) := by
  have hQ := Tolerates.always env.classes fun _ _ => True
  have hobeys : env.InvokeObeys (Under env.classes fun _ _ => True) :=
    fun invoke hsome method target parameter w hw =>
      ⟨hinvoke invoke hsome method target parameter w hw, trivial⟩
  intro hu
  exact (resolve_obeys rfl hQ href c (fun _ _ _ className hsettles hquiet _ =>
    settled_obeys hQ hobeys (fun _ _ _ _ _ _ _ => trivial) hsettles hquiet className) hu).1

/-- One successor after the other is made. -/
theorem successors_cons (env : Environment τ) (s : PathState) (ref : RefSymbol)
    (several : Bool) (i : Nat) (c : Candidate) (rest : List Candidate) (j : Journal) :
    env.successors s ref several i (c :: rest) j =
      andThen (env.successor s ref several i c j) fun next j =>
        andThen (env.successors s ref several (i + 1) rest j) fun others j =>
          (.ok (next :: others), j) := by
  rw [successors]
  rcases env.successor s ref several i c j with ⟨e | next, j'⟩
  · rfl
  · rcases hrest : env.successors s ref several (i + 1) rest j' with ⟨e | others, j''⟩ <;>
      simp only [hrest, andThen_ok, andThen_error]

end Environment

end PathWitness
