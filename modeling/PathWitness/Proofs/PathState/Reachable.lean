import Mathlib.Logic.ExistsUnique
import PathWitness.Proofs.Resolution

/-!
# Reachable States

The states that a path can come to from the entry of a method, when references
are resolved, values are read, conditions are assumed, and the path is ended or
copied, in any order. Operations count whether they succeed or fail, and the
methods of rules may do all of this themselves.

A reference that is resolved must have been given out by the path: it is one of
the path's symbols, or it was read on the path. What happens between giving it
out and resolving it does not matter.

## Main definitions

* `Given`: A state gives out a reference.
* `Reaches`: One state is reached from another.
* `PathState.Agrees`: What an observer of a state can rely on.

## Theorems

* `Kept.lookup`, `Kept.returnValue`, `Kept.throwException`, `Kept.copy`: What one
  operation keeps.
* `Reaches.kept`: What any number of operations keep.
* `agrees_of_reaches`: The path condition, the heap and the symbols agree in every
  state that is reached from an entry.
-/

namespace PathWitness

open PathState (Kept)

/-- A state gives out a reference: as one of its symbols, or as what is read at
    an origin. The second state is the one after that. -/
inductive Given (s : PathState) (ref : RefSymbol) : PathState → Prop where
  | symbol (href : .ref ref ∈ s.symbols.symbols) : Given s ref s
  | read {s' : PathState} (o : Origin)
    (hread : (PathState.lookup o).runOn s = (.ok (some (.ref (.symbolic ref))), s')) :
    Given s ref s'

/-- One state is reached from another by operations on the path. -/
inductive Reaches (classes : ClassTable) : PathState → PathState → Prop where
  /-- Nothing is done. -/
  | refl (s : PathState) : Reaches classes s s
  /-- A value is read. -/
  | lookup {s t : PathState} (o : Origin) (h : Reaches classes s t) :
    Reaches classes s ((PathState.lookup o).runOn t).2
  /-- A condition is assumed. -/
  | assume {s t : PathState} (c : Option Term) (h : Reaches classes s t) :
    Reaches classes s { t with condition := ((PathCondition.assume c).runOn t.condition).2 }
  /-- The path ends with a value. -/
  | returnValue {s t t' : PathState} (v : Option Value) (h : Reaches classes s t)
    (hreturn : t.returnValue v = .ok t') : Reaches classes s t'
  /-- The path ends with an exception. -/
  | throwException {s t t' : PathState} {target : Target} (type : String) (h : Reaches classes s t)
    (hthrow : t.throwException type = .ok (target, t')) : Reaches classes s t'
  /-- The path is continued from a copy. -/
  | copy {s t t' : PathState} (h : Reaches classes s t) (hcopy : t.copy = .ok t') :
    Reaches classes s t'
  /-- The path gets another identifier. -/
  | withId {s t : PathState} (branch : String) (sequence : Int) (h : Reaches classes s t) :
    Reaches classes s (t.withId branch sequence)
  /-- A reference that was given out earlier is resolved, under any rules whose
      methods do nothing but such operations. -/
  | resolve {s t₁ t₂ t : PathState} {τ : Type} (env : Environment τ) (ref : RefSymbol)
    (c : Candidate) (journal : Journal) (h₁ : Reaches classes s t₁) (hgiven : Given t₁ ref t₂)
    (h₂ : Reaches classes t₂ t) (hclasses : env.classes = classes)
    (hinvoke : ∀ invoke, env.invoke = some invoke → ∀ method target parameter (u : Session),
      Reaches classes u.state ((invoke method target parameter).runOn u).2.state) :
    Reaches classes s ((env.resolve ref c).runOn ⟨t, journal⟩).2.state

variable {classes : ClassTable} {s s' t : PathState}

namespace PathState

theorem Kept.lookup (classes : ClassTable) (s : PathState) (o : Origin) :
    Kept classes s ((PathState.lookup o).runOn s).2 := by
  intro h
  have hreads := lookup_reads h o
  exact ⟨hreads.coherent, hreads.grows⟩

/-- Ending a path touches none of the three structures. -/
theorem Kept.freeze (classes : ClassTable) (s : PathState) : Kept classes s s.freeze := by
  intro h
  unfold PathState.freeze
  split
  · exact ⟨⟨by simp only [ne_eq, reduceCtorEq, not_false_eq_true], h.parts⟩, List.prefix_refl _⟩
  · exact ⟨h, List.prefix_refl _⟩

theorem Kept.returnValue {v : Option Value} (hreturn : s.returnValue v = .ok s') :
    Kept classes s s' := by
  rcases bind_eq_ok hreturn with ⟨_, _, hs⟩
  rw [← Except.ok.inj hs]
  have hreturned : Kept classes s { s with returned := v } :=
    fun h => ⟨⟨h.readable, h.parts⟩, List.prefix_refl _⟩
  exact hreturned.trans (.freeze classes _)

/-- A path that throws ends with the exception as a new object. -/
theorem throwException_eq_ok {type : String} {target : Target}
    (h : s.throwException type = .ok (target, s')) :
    s' = freeze { s with
      heap := (s.heap.allocate ⟨Descriptor.className type, {}, none, []⟩).2
      thrown := some target } := by
  unfold PathState.throwException at h
  rcases bind_eq_ok h with ⟨_, _, h⟩
  by_cases htype : (Descriptor.isArray type || Descriptor.isPrimitive type) = true
  · rw [if_pos htype] at h
    rcases bind_eq_ok h with ⟨_, hfailed, _⟩
    exact absurd hfailed (by simp only [reduceCtorEq, not_false_eq_true])
  · rw [if_neg htype] at h
    obtain ⟨rfl, rfl⟩ := Prod.mk.inj (Except.ok.inj h)
    rfl

/-- The exception is an object that no reference leads to. -/
theorem Kept.throwException {type : String} {target : Target}
    (hthrow : s.throwException type = .ok (target, s')) : Kept classes s s' := by
  rw [throwException_eq_ok hthrow]
  have hthrown : Kept classes s { s with
      heap := (s.heap.allocate ⟨Descriptor.className type, {}, none, []⟩).2
      thrown := some target } :=
    fun h => ⟨⟨h.readable, h.parts.thrown rfl (.blank _ _ _)⟩, List.prefix_refl _⟩
  exact hthrown.trans (.freeze classes _)

theorem Kept.copy (hcopy : s.copy = .ok s') : Kept classes s s' := by
  rcases bind_eq_ok hcopy with ⟨_, _, hs⟩
  rw [← Except.ok.inj hs]
  exact fun h => ⟨⟨by simp only [ne_eq, reduceCtorEq, not_false_eq_true], h.parts⟩,
    List.prefix_refl _⟩

end PathState

/-- A reference that is given out is a symbol of the path from then on. -/
theorem Given.mem {ref : RefSymbol} (hgiven : Given s ref s') (h : s.Coherent classes) :
    .ref ref ∈ s'.symbols.symbols := by
  cases hgiven with
  | symbol href => exact href
  | read o hread =>
      have hreads := PathState.lookup_reads h o
      rw [hread] at hreads
      rcases hreads.known _ rfl with ⟨x, hx, hvalue⟩
      cases x with
      | prim n => cases hvalue
      | ref r =>
          cases hvalue
          exact hx

theorem Given.kept {ref : RefSymbol} (hgiven : Given s ref s') : Kept classes s s' := by
  cases hgiven with
  | symbol href => exact .refl classes s
  | read o hread =>
      have hkept := Kept.lookup classes s o
      rwa [hread] at hkept

/-- Any number of operations keep a state coherent. -/
theorem Reaches.kept (h : Reaches classes s t) : Kept classes s t := by
  induction h with
  | refl s => exact .refl classes s
  | lookup o _ ih => exact ih.trans (.lookup classes _ o)
  | assume c _ ih =>
      -- A condition resolves nothing, so nothing has to fit.
      refine ih.trans (.assume (.holds c) fun ref how hc => ?_)
      cases c with
      | none => exact absurd hc List.not_mem_nil
      | some c =>
          have hne := List.mem_singleton.1 hc
          exact absurd hne (by simp only [reduceCtorEq, not_false_eq_true])
  | returnValue v _ hreturn ih => exact ih.trans (.returnValue hreturn)
  | throwException type _ hthrow ih => exact ih.trans (.throwException hthrow)
  | copy _ hcopy ih => exact ih.trans (.copy hcopy)
  | withId branch sequence _ ih =>
      exact ih.trans fun h => ⟨⟨h.readable, h.parts⟩, List.prefix_refl _⟩
  | resolve env ref c journal _ hgiven _ hclasses _ ih₁ ih₂ ihinvoke =>
      subst hclasses
      intro hs
      rcases ih₁ hs with ⟨hs₁, hsymbols₁⟩
      rcases hgiven.kept hs₁ with ⟨hs₂, hsymbols₂⟩
      rcases ih₂ hs₂ with ⟨ht, hsymbols⟩
      -- The reference has stayed a symbol of the path since it was given out.
      have href := hsymbols.subset (hgiven.mem hs₁)
      rcases env.resolve_keepsAt ihinvoke (u := ⟨_, journal⟩) href c ht with ⟨ht', hsymbols'⟩
      exact ⟨ht', ((hsymbols₁.trans hsymbols₂).trans hsymbols).trans hsymbols'⟩

/-- What an observer of a state can rely on. -/
structure PathState.Agrees (classes : ClassTable) (s : PathState) : Prop where
  /-- The positions in use are those from 1 to the size of the heap. -/
  positions : ∀ p, (s.heap.get? p).isSome = true ↔ 1 ≤ p ∧ p ≤ s.heap.size
  /-- A clause that creates an object has made the object it describes. -/
  created : ∀ ref p type, .resolve ref (.fresh p type) ∈ s.condition.clauses →
    ∃ o, s.heap.get? p = some o ∧ o.type = type ∧ o.origin = ref.origin ∧ o.origin.isEmpty = false
  /-- An object that is reached from a root was created by exactly one clause. -/
  creator : ∀ p o, s.heap.get? p = some o → o.origin.isEmpty = false →
    ∃! i : Nat, ∃ ref type, s.condition.clauses[i]? = some (.resolve ref (.fresh p type))
  /-- A reference that is not null leads to an object that can be used as the
      static type of the reference. -/
  targets : ∀ ref how, .resolve ref how ∈ s.condition.clauses → how ≠ .null →
    ∃ p o, how.target = .object p ∧ s.heap.get? p = some o ∧
      classes.isSubclass o.type (Environment.staticClass ref) = true
  /-- Every symbol is read at its origin, and reading it changes nothing. -/
  found : ∀ x ∈ s.symbols.symbols,
    (PathState.lookup x.origin).runOn s = (.ok (some (.ofSymbol x)), s)

/-- The path condition, the heap and the symbols of a path agree in every state
    that is reached from the entry of a method. -/
theorem agrees_of_reaches {signature : Signature} {isStatic : Bool} {names : List String}
    (henter : PathState.enter signature isStatic names = .ok s) (h : Reaches classes s t) :
    t.Agrees classes := by
  have ht := (h.kept (PathState.enter_coherent classes henter)).1
  refine ⟨fun p => Heap.get?_isSome_iff, fun ref p type hc => ?_, fun p o ho hnamed => ?_,
    fun ref how hc hhow => ?_, fun x hx => PathState.lookup_symbol ht hx⟩
  · rcases ht.parts.clauses ref _ hc with ⟨o, ho, htype, horigin, _⟩
    refine ⟨o, ho, htype, horigin, ?_⟩
    rw [horigin]
    exact ht.parts.table.named _ (ht.parts.references ref _ hc)
  · rcases ht.parts.owners p o ho hnamed with ⟨ref, type, hc⟩
    rcases List.mem_iff_getElem?.1 hc with ⟨i, hi⟩
    -- No position is expanded twice.
    refine ⟨i, ⟨ref, type, hi⟩, fun j hj => ?_⟩
    rcases hj with ⟨ref', type', hj⟩
    exact ht.parts.condition.expanded.unique hj hi rfl rfl
  · cases how with
    | null => exact absurd rfl hhow
    | fresh p type =>
        rcases ht.parts.clauses ref _ hc with ⟨o, ho, htype, _, hsub⟩
        exact ⟨p, o, Target.ofPosition_of_pos (Heap.pos_of_get? ho).1, ho, by rwa [htype]⟩
    | aliasOf p =>
        rcases ht.parts.clauses ref _ hc with ⟨o, ho, hsub⟩
        exact ⟨p, o, Target.ofPosition_of_pos (Heap.pos_of_get? ho).1, ho, hsub⟩

/-- Nodes of a list. -/
def nodeClasses : ClassTable :=
  ⟨[⟨"Node", rootClass, false, [⟨"next", "LNode;"⟩, ⟨"value", "I"⟩]⟩]⟩

/-- A method that is given a list and an array. -/
def searchMethod : Signature := ⟨"Search", "(LNode;[I)V", "find"⟩

/-- The state at the entry of the method. -/
def searchEntry : PathState where
  signature := searchMethod
  isStatic := true
  frame := [⟨0, "list", "LNode;", .ref ⟨0, "LNode;", .ofRoot "list"⟩⟩,
    ⟨1, "keys", "[I", .ref ⟨1, "[I", .ofRoot "keys"⟩⟩]
  symbols := ⟨[.ref ⟨0, "LNode;", .ofRoot "list"⟩, .ref ⟨1, "[I", .ofRoot "keys"⟩]⟩

/-- Resolves references to nodes without any rules. -/
def nodeEnvironment : Environment Unit where
  classes := nodeClasses

/-- Makes the node after the first the first node itself. -/
def closeLoop : TraceM Unit Unit := do
  match ← TraceM.ofPath (fun _ => ()) (PathState.lookup ⟨"list", [.field "next"]⟩) with
  | some (.ref (.symbolic ref)) =>
    let _ ← (nodeEnvironment.resolve ref (.aliasOf 1)).mapError fun _ => ()
  | _ => pure ()

/-- Closes the loop as soon as the first node is created. -/
def loopEnvironment : Environment Unit where
  classes := nodeClasses
  rules := ⟨[⟨0, .expands, .ofRoot "list", "Node", ⟨"Search", "()V", "close"⟩, ""⟩]⟩
  invoke := some fun _ _ _ => closeLoop

/-- The state in which the list is a loop of one node. -/
def loopedState : PathState :=
  ((loopEnvironment.resolve ⟨0, "LNode;", .ofRoot "list"⟩ (.expand "")).runOn
    ⟨searchEntry, []⟩).2.state

/-- The state in which the array is there too, and one of its elements was
    read. -/
def searchState : PathState :=
  ((PathState.lookup ⟨"keys", [.index "3"]⟩).runOn
    ((loopEnvironment.resolve ⟨1, "[I", .ofRoot "keys"⟩ (.expand "")).runOn
      ⟨loopedState, []⟩).2.state).2

theorem closeLoop_reaches (u : Session) :
    Reaches nodeClasses u.state (closeLoop.runOn u).2.state := by
  have hlookup : Reaches nodeClasses u.state
      ((PathState.lookup ⟨"list", [.field "next"]⟩).runOn u.state).2 := .lookup _ (.refl u.state)
  unfold closeLoop
  rw [TraceM.runOn_bind, TraceM.runOn_ofPath]
  rcases hread : (PathState.lookup ⟨"list", [.field "next"]⟩).runOn u.state with ⟨e | v, s⟩
  · rw [hread] at hlookup
    exact hlookup
  · rw [hread] at hlookup
    simp only [Except.mapError, andThen_ok]
    split
    · rename_i ref
      have hresolve := Reaches.resolve nodeEnvironment ref (.aliasOf 1) u.journal (.refl u.state)
        (.read _ hread) (.refl s) rfl (fun invoke hi => by cases hi)
      rw [TraceM.runOn_bind, TraceM.runOn_mapError]
      rcases hrun : (nodeEnvironment.resolve ref (.aliasOf 1)).runOn ⟨s, u.journal⟩ with ⟨e | p, u'⟩
      all_goals
        rw [hrun] at hresolve
        exact hresolve
    · exact hlookup

theorem loopEnvironment_reaches (invoke : Invoker Unit) (h : loopEnvironment.invoke = some invoke)
    (method : Signature) (target : Target) (parameter : String) (u : Session) :
    Reaches nodeClasses u.state ((invoke method target parameter).runOn u).2.state := by
  rw [← Option.some.inj h]
  exact closeLoop_reaches u

theorem searchState_reached : Reaches nodeClasses searchEntry searchState := by
  have hlooped : Reaches nodeClasses searchEntry loopedState :=
    .resolve loopEnvironment _ _ _ (.refl _) (.symbol (by decide)) (.refl _) rfl
      loopEnvironment_reaches
  exact .lookup _ (.resolve loopEnvironment _ _ _ (.refl _) (.symbol (by decide)) hlooped rfl
    loopEnvironment_reaches)

theorem enter_search : PathState.enter searchMethod true ["list", "keys"] = .ok searchEntry := by
  have hparameters : Descriptor.parameters searchMethod.descriptor
      = .ok [.typed "LNode;", .typed "[I"] := by cbv
  have hresult : Descriptor.result searchMethod.descriptor = .ok "V" := by cbv
  rw [PathState.enter, hparameters, hresult]
  rfl

theorem agrees_of_reaches_search :
    PathState.enter searchMethod true ["list", "keys"] = .ok searchEntry ∧
      Reaches nodeClasses searchEntry searchState ∧
      searchState.condition.clauses.map Clause.kindName
        = ["expands", "aliases", "expands", "assume"] ∧
      searchState.symbols.symbols.length = 6 ∧ searchState.Agrees nodeClasses :=
  ⟨enter_search, searchState_reached, by decide +kernel, by decide +kernel,
    agrees_of_reaches enter_search searchState_reached⟩

end PathWitness
