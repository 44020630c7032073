import Mathlib.Logic.Relation
import PathWitness.Proofs.PathState.Coherence

/-!
# All Changes of a State

Whatever is done with a path, its state changes in a few ways only: a slot gets
the symbol at its origin, a condition is assumed, a reference is resolved, an
exception is created, or something is written that neither the path condition
nor the heap nor the symbols depend on. `Change` lists the ways, each with what
was checked before. What is to hold after every operation is shown for each way,
and an operation is shown to be a sequence of changes once.

An operation that fails halfway is a sequence of changes too. That is why a new
object is one change, together with the clause that names it, while each of its
fields is a change of its own.

## Main definitions

* `Offers`: What can be read from an object of a type.
* `Change`: One change of a state.
* `Changes`: Any number of changes.

## Theorems

* `Change.kept`, `Changes.kept`: Changes keep a state coherent.
* `Changes.clauses`: Changes add clauses at the end.
* `Changes.fired`: No change makes a rule fire.
-/

namespace PathWitness

open PathState (Kept)

/-- The slots of an object of a type: the fields of a class, and the elements of
    an array. -/
inductive Offers (classes : ClassTable) (type : String) : Accessor → Prop where
  | field {f : FieldDecl} (harray : Descriptor.isArray type = false)
    (hf : f ∈ classes.fields type) : Offers classes type (.field f.name)
  | element {i : String} (harray : Descriptor.isArray type = true)
    (hi : PathState.isElementIndex i = true) : Offers classes type (.index i)

/-- The condition that a length is not negative. -/
def lengthCondition (n : PrimSymbol) : Term :=
  .binary (.comparison .ge) (.symbol n) (.const (.int 0))

/-- One change of a state. Which conditions may be assumed is a parameter. -/
inductive Change (classes : ClassTable) (may : PathState → Term → Prop) :
    PathState → PathState → Prop where
  /-- A slot gets the symbol at its origin. The symbol of an element, if it is new, has
      the type of the members. -/
  | written {s : PathState} {p : Int} {o o' : HeapObject} {a : Accessor} {x : Symbol}
    {t : SymbolTable} (hobject : s.heap.get? p = some o) (hnamed : o.origin.isEmpty = false)
    (hoffers : Offers classes o.type a) (hsupplies : s.symbols.Supplies (o.origin.push a) x t)
    (hset : o.set a (some (.ofSymbol x)) = .ok o')
    (hkept : ∀ key w, o.Names a key → o.slot? key = some w → w = some (.ofSymbol x))
    (hmember : ∀ i, a = .index i →
      x ∈ s.symbols.symbols ∨ Descriptor.member o.type = .ok x.type) :
    Change classes may s { s with symbols := t, heap := s.heap.replace p o' }
  /-- A condition is assumed. -/
  | assumed {s : PathState} {c : Term} {pc : PathCondition} (hmay : may s c)
    (hgrown : s.condition.Grown [.assume c] pc) : Change classes may s { s with condition := pc }
  /-- A reference is resolved without a new object. -/
  | settled {s : PathState} {ref : RefSymbol} {how : Resolution} {pc : PathCondition}
    (href : .ref ref ∈ s.symbols.symbols) (hold : ∀ p type, how ≠ .fresh p type)
    (hfits : Fits classes s.heap ref how) (hgrown : s.condition.Grown [.resolve ref how] pc) :
    Change classes may s { s with condition := pc }
  /-- A reference is resolved to a new object. -/
  | object {s : PathState} {ref : RefSymbol} {type : String} {pc : PathCondition}
    (href : .ref ref ∈ s.symbols.symbols) (harray : Descriptor.isArray type = false)
    (hsub : classes.isSubclass type (Environment.staticClass ref) = true)
    (hgrown : s.condition.Grown [.resolve ref (.fresh (s.heap.size + 1) type)] pc) :
    Change classes may s
      { s with heap := (s.heap.allocate ⟨type, ref.origin, none, []⟩).2, condition := pc }
  /-- A reference is resolved to a new array, whose length is not negative. -/
  | array {s : PathState} {ref : RefSymbol} {type : String} {n : PrimSymbol} {t : SymbolTable}
    {pc : PathCondition} (href : .ref ref ∈ s.symbols.symbols)
    (harray : Descriptor.isArray type = true)
    (hsub : classes.isSubclass type (Environment.staticClass ref) = true)
    (hsupplies : s.symbols.Supplies (ref.origin.push .length) (.prim n) t) (hint : n.type = .int)
    (hgrown : s.condition.Grown
      [.resolve ref (.fresh (s.heap.size + 1) type), .assume (lengthCondition n)] pc) :
    Change classes may s
      { s with
        symbols := t
        heap := (s.heap.allocate ⟨type, ref.origin, some (.symbol n), []⟩).2
        condition := pc }
  /-- An exception is created. -/
  | thrown {s : PathState} (type : String) (target : Option Target) :
    Change classes may s
      { s with heap := (s.heap.allocate ⟨type, {}, none, []⟩).2, thrown := target }
  /-- The identifier, the status or the returned value is written. -/
  | noted {s : PathState} (id : PathId) (status : Status) (returned : Option Value)
    (hstatus : status ≠ .released) :
    Change classes may s { s with id := id, status := status, returned := returned }

/-- Any number of changes. -/
def Changes (classes : ClassTable) (may : PathState → Term → Prop) : PathState → PathState → Prop :=
  Relation.ReflTransGen (Change classes may)

variable {classes : ClassTable} {may : PathState → Term → Prop} {s s' s'' : PathState}

namespace Change

/-- A change keeps a state coherent and its symbols in place. -/
theorem kept (h : Change classes may s s') : Kept classes s s' := by
  intro hs
  cases h with
  | written hobject hnamed hoffers hsupplies hset hkept hmember =>
      exact ⟨⟨hs.readable, hs.parts.written hobject hnamed hsupplies hset hkept⟩, hsupplies.grows⟩
  | assumed hmay hgrown =>
      -- A condition resolves nothing, so nothing has to fit.
      refine ⟨⟨hs.readable, hs.parts.assumed hgrown fun ref how hc => ?_⟩, List.prefix_refl _⟩
      exact absurd (List.mem_singleton.1 hc) (by simp only [reduceCtorEq, not_false_eq_true])
  | settled href hold hfits hgrown =>
      refine ⟨⟨hs.readable, hs.parts.assumed hgrown fun ref how hc => ?_⟩, List.prefix_refl _⟩
      obtain ⟨rfl, rfl⟩ := Clause.resolve.inj (List.mem_singleton.1 hc)
      exact ⟨href, hfits⟩
  | object href harray hsub hgrown =>
      exact ⟨⟨hs.readable, hs.parts.expanded (o := ⟨_, _, none, []⟩) href rfl hsub hgrown
        (fun ref' how => by rw [List.mem_singleton, Clause.resolve.injEq]) hs.parts.table
        (List.prefix_refl _) (.blank _ _ _) (fun x hx => .inl hx)⟩, List.prefix_refl _⟩
  | @array ref type n t pc href harray hsub hsupplies hint hgrown =>
      refine ⟨⟨hs.readable, hs.parts.expanded href rfl hsub hgrown (fun ref' how => ?_)
        (hsupplies.wellFormed hs.parts.table) hsupplies.grows ⟨fun m hm => ?_, fun key v hv => ?_⟩
        (fun x hx => ?_)⟩, hsupplies.grows⟩
      · simp only [List.mem_cons, Clause.resolve.injEq, reduceCtorEq, List.not_mem_nil, or_false]
      · exact ⟨n, (Option.some.inj hm).symm, hsupplies.mem⟩
      · exact absurd hv (by simp only [HeapObject.slot?, List.lookup_nil, reduceCtorEq,
          not_false_eq_true])
      · rcases hsupplies.mem_cases hx with hx | ⟨rfl, horigin⟩
        · exact .inl hx
        · -- The length of the array is read through the last step of its origin.
          refine .inr ⟨.length, horigin, ?_⟩
          simp only [HeapObject.get, HeapObject.isArray, harray]
          rfl
  | thrown type target =>
      exact ⟨⟨hs.readable, hs.parts.thrown rfl (.blank _ _ _)⟩, List.prefix_refl _⟩
  | noted id status returned hstatus => exact ⟨⟨hstatus, hs.parts⟩, List.prefix_refl _⟩

/-- A change adds clauses at the end, if it adds any. -/
theorem clauses (h : Change classes may s s') : s.condition.clauses <+: s'.condition.clauses := by
  cases h with
  | written hobject hnamed hoffers hsupplies hset hkept hmember => exact List.prefix_refl _
  | assumed hmay hgrown => exact ⟨_, hgrown.extends.1.symm⟩
  | settled href hold hfits hgrown => exact ⟨_, hgrown.extends.1.symm⟩
  | object href harray hsub hgrown => exact ⟨_, hgrown.extends.1.symm⟩
  | array href harray hsub hsupplies hint hgrown => exact ⟨_, hgrown.extends.1.symm⟩
  | thrown type target => exact List.prefix_refl _
  | noted id status returned hstatus => exact List.prefix_refl _

/-- A change leaves objects where they are, and what could be read is still read. -/
theorem heap (h : Change classes may s s') : s.heap.Extends s'.heap := by
  cases h with
  | written hobject hnamed hoffers hsupplies hset hkept hmember =>
      exact Heap.extends_replace hobject (HeapObject.extends_of_set hset hkept)
  | assumed hmay hgrown => exact .refl _
  | settled href hold hfits hgrown => exact .refl _
  | object href harray hsub hgrown => exact Heap.extends_allocate _ _
  | array href harray hsub hsupplies hint hgrown => exact Heap.extends_allocate _ _
  | thrown type target => exact Heap.extends_allocate _ _
  | noted id status returned hstatus => exact .refl _

/-- No change makes a rule fire. -/
theorem fired (h : Change classes may s s') : s'.fired = s.fired := by
  cases h <;> rfl

end Change

namespace Changes

theorem trans (h : Changes classes may s s') (h' : Changes classes may s' s'') :
    Changes classes may s s'' :=
  Relation.ReflTransGen.trans h h'

theorem refl (s : PathState) : Changes classes may s s :=
  Relation.ReflTransGen.refl

theorem single (h : Change classes may s s') : Changes classes may s s' :=
  Relation.ReflTransGen.single h

theorem kept (h : Changes classes may s s') : Kept classes s s' := by
  induction h with
  | refl => exact .refl classes s
  | tail _ hchange ih => exact ih.trans hchange.kept

theorem clauses (h : Changes classes may s s') : s.condition.clauses <+: s'.condition.clauses := by
  induction h with
  | refl => exact List.prefix_refl _
  | tail _ hchange ih => exact ih.trans hchange.clauses

theorem fired (h : Changes classes may s s') : s'.fired = s.fired := by
  induction h with
  | refl => rfl
  | tail _ hchange ih => exact hchange.fired.trans ih

end Changes

end PathWitness
