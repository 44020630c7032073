import PathWitness.Proofs.PathState.Reachable

/-!
# Along a Path

The sessions that follow one another along a path: the state of the path, and the
journal of what happened on it. A copy goes on with the journal of the path it
was copied from.

What is done along a path can be restricted: to certain tables of rules, to
certain conditions, and to rules that fire because of a resolution. A relation
between sessions that all changes obey, and that the firing of rules obeys,
holds along the whole path.

## Main definitions

* `Conduct`: What may be done along a path.
* `Follows`: One session follows another along a path.
* `Respects`: A relation that all that may be done obeys.
* `Onward`: A state on a path that goes on from another.

## Theorems

* `Follows.trans`: Paths can be put together.
* `Follows.under`: A relation that is respected holds along a path.
* `Respects.ofFired`: A relation that single firings obey is respected.
* `Follows.onward`: Clauses are only added.
-/

namespace PathWitness

/-- What may be done along a path. -/
structure Conduct where
  /-- The declared classes. -/
  classes : ClassTable
  /-- The rules under which references may be resolved. -/
  rules : RuleTable → Prop
  /-- The conditions that a state may assume. -/
  conditions : PathState → Term → Prop
  /-- Rules may also be fired without a resolution. -/
  direct : Prop

/-- Paths on which references are resolved under one table of rules. Whether rules
    may also be fired without a resolution is left open. -/
def Conduct.underRules (classes : ClassTable) (table : RuleTable) (direct : Prop) : Conduct :=
  ⟨classes, (· = table), fun _ _ => True, direct⟩

/-- One session follows another along a path. Operations count whether they
    succeed or fail, and the methods of rules do nothing but such operations. -/
inductive Follows (k : Conduct) : Session → Session → Prop where
  /-- Nothing is done. -/
  | refl (u : Session) : Follows k u u
  /-- A value is read. -/
  | lookup {u v : Session} (o : Origin) (h : Follows k u v) :
    Follows k u ⟨((PathState.lookup o).runOn v.state).2, v.journal⟩
  /-- A condition is assumed. -/
  | assume {u v : Session} (c : Option Term) (hc : ∀ t, c = some t → k.conditions v.state t)
    (h : Follows k u v) : Follows k u
      ⟨{ v.state with condition := ((PathCondition.assume c).runOn v.state.condition).2 },
        v.journal⟩
  /-- The path ends with a value. -/
  | returnValue {u v : Session} {s : PathState} (x : Option Value) (h : Follows k u v)
    (hreturn : v.state.returnValue x = .ok s) : Follows k u ⟨s, v.journal⟩
  /-- The path ends with an exception. -/
  | throwException {u v : Session} {s : PathState} {target : Target} (type : String)
    (h : Follows k u v) (hthrow : v.state.throwException type = .ok (target, s)) :
    Follows k u ⟨s, v.journal⟩
  /-- The path is continued from a copy. -/
  | copy {u v : Session} {s : PathState} (h : Follows k u v) (hcopy : v.state.copy = .ok s) :
    Follows k u ⟨s, v.journal⟩
  /-- The path gets another identifier. -/
  | withId {u v : Session} (branch : String) (sequence : Int) (h : Follows k u v) :
    Follows k u ⟨v.state.withId branch sequence, v.journal⟩
  /-- Something other than a firing is written down. -/
  | told {u v : Session} (e : Event) (hquiet : e.firing? = none) (h : Follows k u v) :
    Follows k u ⟨v.state, e :: v.journal⟩
  /-- A reference that was given out earlier is resolved. -/
  | resolve {u v₁ v : Session} {s₂ : PathState} {τ : Type} (env : Environment τ) (ref : RefSymbol)
    (c : Candidate) (h₁ : Follows k u v₁) (hgiven : Given v₁.state ref s₂)
    (h₂ : Follows k ⟨s₂, v₁.journal⟩ v) (hclasses : env.classes = k.classes)
    (hrules : k.rules env.rules)
    (hinvoke : ∀ invoke, env.invoke = some invoke → ∀ method target parameter (w : Session),
      Follows k w ((invoke method target parameter).runOn w).2) :
    Follows k u ((env.resolve ref c).runOn v).2
  /-- The rules that wait for a resolution are fired without one. -/
  | fireMatching {u v : Session} {τ : Type} (hdirect : k.direct) (env : Environment τ) (o : Origin)
    (className : String) (kind : TriggerKind) (target : Target) (h : Follows k u v)
    (hrules : k.rules env.rules)
    (hinvoke : ∀ invoke, env.invoke = some invoke → ∀ method target parameter (w : Session),
      Follows k w ((invoke method target parameter).runOn w).2) :
    Follows k u ((env.fireMatching o className kind target).runOn v).2

/-- A relation that all that may be done along a path obeys. -/
structure Respects (k : Conduct) (Q : Session → Session → Prop) : Prop extends
    Tolerates k.classes k.conditions Q where
  /-- It holds when a reference was resolved and rules have fired because of
      that. -/
  resolved : ∀ {τ : Type} (env : Environment τ) {u : Session} {ref : RefSymbol} {c : Candidate}
    {how : Resolution} {s : PathState} {e : Event} {className : String}, k.rules env.rules →
    env.InvokeObeys (Under k.classes Q) → u.state.Coherent k.classes →
    .ref ref ∈ u.state.symbols.symbols → Settles k.classes u.state ref c how s →
    e.firing? = none → (∀ p type, how = .fresh p type → className = type) →
    Under k.classes Q u
      ((env.fireFor ref className how.kind how.target).runOn ⟨s, e :: u.journal⟩).2
  /-- Rules obey it when they fire without a resolution. -/
  direct : k.direct → ∀ {τ : Type} (env : Environment τ) {u : Session} (o : Origin)
    (className : String) (kind : TriggerKind) (target : Target), k.rules env.rules →
    env.InvokeObeys (Under k.classes Q) →
    Obeys (Under k.classes Q) u (env.fireMatching o className kind target)

variable {k : Conduct} {Q : Session → Session → Prop} {u v : Session}

/-- A path goes on from where another has come to. -/
theorem Follows.trans {w : Session} (h : Follows k u v) (h' : Follows k v w) : Follows k u w := by
  induction h' with
  | refl _ => exact h
  | lookup o _ ih => exact .lookup o (ih h)
  | assume c hc _ ih => exact .assume c hc (ih h)
  | returnValue x _ hreturn ih => exact .returnValue x (ih h) hreturn
  | throwException type _ hthrow ih => exact .throwException type (ih h) hthrow
  | copy _ hcopy ih => exact .copy (ih h) hcopy
  | withId branch sequence _ ih => exact .withId branch sequence (ih h)
  | told e hquiet _ ih => exact .told e hquiet (ih h)
  | resolve env ref c _ hgiven h₂ hclasses hrules hinvoke ih₁ =>
      exact .resolve env ref c (ih₁ h) hgiven h₂ hclasses hrules hinvoke
  | fireMatching hdirect env o className kind target _ hrules hinvoke ih =>
      exact .fireMatching hdirect env o className kind target (ih h) hrules hinvoke

theorem Follows.composes (k : Conduct) : Composes (Follows k) :=
  ⟨.refl, .trans⟩

/-- A relation that the firing of one rule obeys is obeyed by the firing of
    many. -/
theorem Respects.ofFired (hQ : Tolerates k.classes k.conditions Q)
    (hfired : ∀ (w : Session) (table : RuleTable), k.rules table → ∀ rule ∈ table.rules,
      ∀ o target, rule.origin.text = o.text → rule.firingKey o target ∉ w.state.fired →
      Q w (w.noteFired rule o target)) : Respects k Q where
  toTolerates := hQ
  resolved := fun env _ _ _ _ _ _ className hrules hinvoke _ _ hsettles hquiet _ =>
    Environment.settled_obeys hQ hinvoke (fun w => hfired w env.rules hrules) hsettles hquiet
      className
  direct := fun _ _ env _ _ _ _ _ hrules hinvoke =>
    Environment.fireMatching_obeys hQ.toComposes hinvoke (fun w => hfired w env.rules hrules)
      _ _ _ _

namespace PathState

variable {classes : ClassTable} {may : PathState → Term → Prop} {s s' : PathState}

/-- Ending a path is a change that neither the path condition nor the heap nor
    the symbols depend on. -/
theorem freeze_changes (classes : ClassTable) (may : PathState → Term → Prop) (s : PathState) :
    Changes classes may s s.freeze := by
  unfold freeze
  split
  · exact .single (.noted s.id .frozen s.returned (by simp only [ne_eq, reduceCtorEq,
      not_false_eq_true]))
  · exact .refl s

theorem returnValue_changes {x : Option Value} (hs : s.status ≠ .released)
    (h : s.returnValue x = .ok s') : Changes classes may s s' := by
  rcases bind_eq_ok h with ⟨_, _, hs'⟩
  rw [← Except.ok.inj hs']
  exact (Changes.single (.noted s.id s.status x hs)).trans (freeze_changes classes may _)

theorem throwException_changes {type : String} {target : Target}
    (h : s.throwException type = .ok (target, s')) : Changes classes may s s' := by
  rw [throwException_eq_ok h]
  exact (Changes.single (.thrown _ _)).trans (freeze_changes classes may _)

theorem copy_changes (h : s.copy = .ok s') : Changes classes may s s' := by
  rcases bind_eq_ok h with ⟨_, _, hs'⟩
  rw [← Except.ok.inj hs']
  exact .single (.noted s.id .active s.returned (by simp only [ne_eq, reduceCtorEq,
    not_false_eq_true]))

/-- A condition that may be assumed, whether it is accepted or refused. -/
theorem assume_changes {c : Option Term} (hc : ∀ t, c = some t → may s t) :
    Changes classes may s
      { s with condition := ((PathCondition.assume c).runOn s.condition).2 } := by
  rcases (Assumption.holds c).make_cases s.condition with ⟨e, he⟩ | ⟨pc, hok, hgrown⟩
  · rw [Assumption.make] at he
    rw [he]
    exact .refl s
  · rw [Assumption.make] at hok
    rw [hok]
    cases c with
    | none =>
        -- A condition that is not there is refused.
        exact absurd hok (by simp only [PathCondition.assume, PathCondition.checkBoolean,
          ConditionM.runOn_bind, ConditionM.runOn_throw, andThen_error, Prod.mk.injEq, reduceCtorEq,
          false_and, not_false_eq_true])
    | some t => exact .single (.assumed (hc t rfl) hgrown)

end PathState

/-- A relation that is respected holds along a path. -/
theorem Follows.under (hQ : Respects k Q) (h : Follows k u v) : Under k.classes Q u v := by
  have hchanges : ∀ {w : Session} {s : PathState},
      (w.state.Coherent k.classes → Changes k.classes k.conditions w.state s) →
      Under k.classes Q w ⟨s, w.journal⟩ := fun hchange hw => hQ.changes (hchange hw) hw
  induction h with
  | refl u => exact hQ.under.refl u
  | lookup o _ ih =>
      exact hQ.under.trans ih (hchanges fun hv => (PathState.lookup_changes k.conditions hv o).1)
  | assume c hc _ ih => exact hQ.under.trans ih (hchanges fun _ => PathState.assume_changes hc)
  | returnValue x _ hreturn ih =>
      exact hQ.under.trans ih (hchanges fun hv => PathState.returnValue_changes hv.readable hreturn)
  | throwException type _ hthrow ih =>
      exact hQ.under.trans ih (hchanges fun _ => PathState.throwException_changes hthrow)
  | copy _ hcopy ih => exact hQ.under.trans ih (hchanges fun _ => PathState.copy_changes hcopy)
  | @withId u v branch sequence _ ih =>
      exact hQ.under.trans ih (hchanges fun hv =>
        .single (.noted ⟨branch, sequence⟩ v.state.status v.state.returned hv.readable))
  | told e hquiet _ ih => exact hQ.under.trans ih (hQ.under_told hquiet)
  | @resolve u v₁ v s₂ τ env ref c _ hgiven _ hclasses hrules _ ih₁ ih₂ ihinvoke =>
      have hread : Under k.classes Q v₁ ⟨s₂, v₁.journal⟩ := by
        cases hgiven with
        | symbol href => exact hQ.under.refl v₁
        | read o hread =>
            refine hchanges fun hv => ?_
            have hlookup := (PathState.lookup_changes k.conditions hv o).1
            rwa [hread] at hlookup
      intro hu
      obtain ⟨⟨hv₁, -⟩, -⟩ := ih₁ hu
      have href₂ := hgiven.mem hv₁
      obtain ⟨⟨hs₂, -⟩, -⟩ := hread hv₁
      obtain ⟨⟨hv, hsymbols⟩, -⟩ := ih₂ hs₂
      -- The reference has stayed a symbol of the path since it was given out.
      have href := hsymbols.subset href₂
      have hresolve : Under k.classes Q v ((env.resolve ref c).runOn v).2 :=
        Environment.resolve_obeys hclasses hQ.toTolerates href c
          fun how s e className hsettles hquiet hclass =>
            hQ.resolved env hrules ihinvoke hv href hsettles hquiet hclass
      exact hQ.under.trans (hQ.under.trans (hQ.under.trans ih₁ hread) ih₂) hresolve hu
  | fireMatching hdirect env o className kind target _ hrules _ ih ihinvoke =>
      exact hQ.under.trans ih (hQ.direct hdirect env o className kind target hrules ihinvoke)

section Growth

variable {s s' : PathState} {classes : ClassTable}

/-- Along a path clauses are only added. -/
theorem clauses_respects (k : Conduct) :
    Respects k fun u v => u.state.condition.clauses <+: v.state.condition.clauses :=
  Respects.ofFired ⟨⟨fun _ => List.prefix_refl _, fun h h' => h.trans h'⟩,
    fun _ hchange => hchange.clauses, fun _ _ => List.prefix_refl _⟩
    fun _ _ _ _ _ _ _ _ _ => List.prefix_refl _

/-- A state on a path that goes on from another state. -/
structure Onward (classes : ClassTable) (s s' : PathState) : Prop where
  coherent : s'.Coherent classes
  clauses : s.condition.clauses <+: s'.condition.clauses

theorem Onward.trans {s'' : PathState} (h : Onward classes s s') (h' : Onward classes s' s'') :
    Onward classes s s'' :=
  ⟨h'.coherent, h.clauses.trans h'.clauses⟩

theorem Follows.onward (h : Follows k u v) (hu : u.state.Coherent k.classes) :
    Onward k.classes u.state v.state :=
  have hunder := h.under (clauses_respects k) hu
  ⟨hunder.1.1, hunder.2⟩

/-- Rules that fire add clauses only. -/
theorem Environment.fireFor_clauses {τ : Type} {env : Environment τ}
    (hinvoke : env.InvokeObeys (Follows k)) {w : Session} (hw : w.state.Coherent k.classes)
    (ref : RefSymbol) (className : String) (kind : TriggerKind) (target : Target) :
    w.state.condition.clauses
      <+: ((env.fireFor ref className kind target).runOn w).2.state.condition.clauses :=
  (fireFor_obeys (clauses_respects k).toComposes
    (fun invoke hi method target parameter w =>
      (hinvoke invoke hi method target parameter w).under (clauses_respects k))
    (fun _ _ _ _ _ _ _ => List.prefix_refl _) ref className kind target hw).2

end Growth

end PathWitness
