import Mathlib.Data.List.Nodup
import PathWitness.Proofs.PathState.Anchored
import PathWitness.Proofs.TestCase.JavaHeap

/-!
# Where a Test Keeps the Values of Symbols

The statements of a test create one object for each expansion, in the order of
the clauses. So the address of an object is known before anything runs: it is
the number of expansions in front of its own. With it, the place of a symbol is
known: a root has its variable, and what is nested has a slot of the object that
the reference before it was expanded to. A nested primitive symbol has a variable
too, in which its value is computed.

Two symbols never share a place. This takes more than the path promises: names
of variables must stay apart when they are turned into identifiers, and elements
of one array must not spell the same index in two ways.

## Main definitions

* `addressOf`: The address of the object at a position.
* `Resolution.javaValue`: What a resolved reference is in a test.
* `Occupies`, `Stores`: The places of a symbol.
* `PathState.DistinctIndices`: Elements of an array have different indices.
* `Layout`: What keeps symbols apart.

## Theorems

* `addressOf_eq_length`, `addressOf_inj`: Addresses.
* `Occupies.unique`: A symbol is in one place.
* `Stores.inj`: A place belongs to one symbol.
-/

namespace PathWitness

/-- An index leads to clauses that have no key in common. -/
theorem Indexed.nodup {κ : Type} [BEq κ] {key : Clause → Option κ} {map : List (κ × Nat)}
    {clauses : List Clause} (h : Indexed key map clauses) : (clauses.filterMap key).Nodup := by
  rw [List.Nodup, List.pairwise_filterMap, List.pairwise_iff_getElem]
  intro i j hi hj hij k hk k' hk' heq
  subst heq
  exact absurd (h.unique (List.getElem?_eq_getElem hi) (List.getElem?_eq_getElem hj) hk hk')
    (Nat.ne_of_lt hij)

/-- Elements of an array have different indices, however these are spelled. -/
def PathState.DistinctIndices (s : PathState) : Prop :=
  ∀ p o, s.heap.get? p = some o → o.isArray = true → ∀ i i' k,
    (o.slot? ("[" ++ i ++ "]")).isSome → (o.slot? ("[" ++ i' ++ "]")).isSome →
    Number.parseDecimal32 i.toList = some k → Number.parseDecimal32 i'.toList = some k → i = i'

namespace TestCase

/-- The positions at which clauses create objects, in the order of the clauses. -/
def expandedPositions (clauses : List Clause) : List Int :=
  clauses.filterMap Clause.expandedPosition?

/-- The address of the object at a position: the number of objects that are
    created before it. -/
def addressOf (clauses : List Clause) (p : Int) : Nat :=
  (expandedPositions clauses).idxOf p

end TestCase

/-- What a resolved reference is in a test. -/
def Resolution.javaValue (clauses : List Clause) : Resolution → TestCase.JavaValue
  | null => .null
  | fresh p _ => .object (TestCase.addressOf clauses p)
  | aliasOf p => .object (TestCase.addressOf clauses p)

namespace TestCase

open Setup (rootVariable symbolVariable)

/-- Where a symbol is: a root has its variable, and what is nested has a slot of
    the object that the reference before it was expanded to. -/
inductive Occupies (clauses : List Clause) (x : Symbol) : Place → Prop where
  | root (hroot : x.origin.steps = []) :
    Occupies clauses x (.binding (rootVariable x.origin.root))
  | field {base : RefSymbol} {p : Int} {type name : String}
    (hclause : .resolve base (.fresh p type) ∈ clauses)
    (horigin : x.origin = base.origin.push (.field name)) :
    Occupies clauses x (.field (addressOf clauses p) name)
  | element {base : RefSymbol} {p : Int} {type i : String} {k : Nat}
    (hclause : .resolve base (.fresh p type) ∈ clauses)
    (horigin : x.origin = base.origin.push (.index i))
    (hk : Number.parseDecimal32 i.toList = some k) :
    Occupies clauses x (.element (addressOf clauses p) k)

/-- The places of a symbol: where it is, and a variable that its value is computed
    in if it is primitive and nested. -/
inductive Stores (clauses : List Clause) : Symbol → Place → Prop where
  | own {x : Symbol} {π : Place} (hπ : Occupies clauses x π) : Stores clauses x π
  | computed {x : PrimSymbol} (hnested : x.origin.steps ≠ []) :
    Stores clauses (.prim x) (.binding (symbolVariable x))

/-- What keeps the symbols of a state apart in a test. -/
structure Layout (classes : ClassTable) (s : PathState) : Prop where
  coherent : s.Coherent classes
  grounded : s.Grounded classes
  /-- Variables have names that differ as identifiers. -/
  roots : (s.frame.map fun v => rootVariable v.name).Nodup
  indices : s.DistinctIndices

section Names

theorem symbolVariable_ne_rootVariable (x : PrimSymbol) (root : String) :
    symbolVariable x ≠ rootVariable root := by
  intro h
  have hlist := congrArg String.toList h
  rw [symbolVariable, rootVariable, String.toList_append, String.toList_append] at hlist
  exact absurd (List.cons.inj hlist).1 (by decide)

theorem symbolVariable_inj {x y : PrimSymbol} (h : symbolVariable x = symbolVariable y) :
    x.number = y.number := by
  have hlist := congrArg String.toList h
  rw [symbolVariable, symbolVariable, String.toList_append, String.toList_append] at hlist
  exact eq_of_numeral (List.append_cancel_left hlist)

end Names

variable {classes : ClassTable} {s : PathState} {x y : Symbol} {π π' : Place}

section Addresses

variable {pc : PathCondition} {done rest : List Clause} {ref : RefSymbol} {p q : Int}
  {type : String}

theorem mem_expandedPositions {clauses : List Clause}
    (h : .resolve ref (.fresh p type) ∈ clauses) : p ∈ expandedPositions clauses :=
  List.mem_filterMap.2 ⟨_, h, rfl⟩

/-- The address of a new object is the number of objects before it. -/
theorem addressOf_eq_length (h : pc.Consistent)
    (hclauses : pc.clauses = done ++ .resolve ref (.fresh p type) :: rest) :
    addressOf pc.clauses p = (expandedPositions done).length := by
  have hsplit : expandedPositions pc.clauses
      = expandedPositions done ++ p :: expandedPositions rest := by
    rw [hclauses, expandedPositions, List.filterMap_append,
      List.filterMap_cons_some (show Clause.expandedPosition? _ = some p from rfl)]
    rfl
  have hnodup : (expandedPositions pc.clauses).Nodup := h.expanded.nodup
  have hnew : p ∉ expandedPositions done := by
    rw [hsplit, List.nodup_append] at hnodup
    exact fun hmem => hnodup.2.2 p hmem p List.mem_cons_self rfl
  rw [addressOf, hsplit, List.idxOf_append_of_notMem hnew, List.idxOf_cons_self, Nat.add_zero]

/-- Different positions have different addresses. -/
theorem addressOf_inj {clauses : List Clause} (hp : p ∈ expandedPositions clauses)
    (h : addressOf clauses p = addressOf clauses q) : p = q :=
  (List.idxOf_inj hp).1 h

end Addresses

namespace Layout

variable (h : Layout classes s)

include h

/-- Symbols with the same origin are the same. -/
theorem eq_of_origin (hx : x ∈ s.symbols.symbols) (hy : y ∈ s.symbols.symbols)
    (horigin : x.origin = y.origin) : x = y := by
  have hfound := h.coherent.parts.table.found x hx
  rw [horigin, h.coherent.parts.table.found y hy] at hfound
  exact (Option.some.inj hfound).symm

/-- Of the references that were expanded, one has a given origin. -/
theorem base_unique {base base' : RefSymbol} {p p' : Int} {type type' : String}
    (hc : .resolve base (.fresh p type) ∈ s.condition.clauses)
    (hc' : .resolve base' (.fresh p' type') ∈ s.condition.clauses)
    (horigin : base.origin = base'.origin) : base = base' ∧ p = p' ∧ type = type' := by
  obtain ⟨hbase, hhow⟩ := h.coherent.parts.resolve_unique hc hc' (by rw [horigin])
  obtain ⟨hp, htype⟩ := Resolution.fresh.inj hhow
  exact ⟨hbase, hp, htype⟩

/-- Of the references that were expanded, one has an object at a given address. -/
theorem base_of_address {base base' : RefSymbol} {p p' : Int} {type type' : String}
    (hc : .resolve base (.fresh p type) ∈ s.condition.clauses)
    (hc' : .resolve base' (.fresh p' type') ∈ s.condition.clauses)
    (haddress : addressOf s.condition.clauses p = addressOf s.condition.clauses p') :
    base = base' ∧ p = p' := by
  have hp := addressOf_inj (mem_expandedPositions hc) haddress
  subst hp
  obtain ⟨i, hi⟩ := List.mem_iff_getElem?.1 hc
  obtain ⟨j, hj⟩ := List.mem_iff_getElem?.1 hc'
  have hij := h.coherent.parts.condition.expanded.unique hi hj rfl rfl
  rw [← hij, hi] at hj
  exact ⟨(Clause.resolve.inj (Option.some.inj hj)).1, rfl⟩

/-- Roots with the same variable are the same. -/
theorem eq_of_rootVariable (hx : x ∈ s.symbols.symbols) (hy : y ∈ s.symbols.symbols)
    (hxroot : x.origin.steps = []) (hyroot : y.origin.steps = [])
    (hname : rootVariable x.origin.root = rootVariable y.origin.root) : x = y := by
  have hroot : ∀ {z : Symbol}, z ∈ s.symbols.symbols → z.origin.steps = [] →
      ∃ v ∈ s.frame, z.origin = .ofRoot v.name := by
    intro z hz hzroot
    cases h.grounded.symbols z hz with
    | root hv horigin => exact ⟨_, hv, horigin⟩
    | slot _ _ horigin _ =>
        rw [horigin] at hzroot
        exact absurd hzroot (Origin.push_ne_root _ _)
  obtain ⟨v, hv, hxv⟩ := hroot hx hxroot
  obtain ⟨w, hw, hyw⟩ := hroot hy hyroot
  rw [hxv, hyw] at hname
  have hvw := List.inj_on_of_nodup_map h.roots hv hw hname
  exact h.eq_of_origin hx hy (by rw [hxv, hyw, hvw])

/-- An element of an array has a slot of the array. -/
theorem slot_of_element {base : RefSymbol} {p : Int} {type i : String} (hx : x ∈ s.symbols.symbols)
    (hclause : .resolve base (.fresh p type) ∈ s.condition.clauses)
    (horigin : x.origin = base.origin.push (.index i)) :
    ∃ o, s.heap.get? p = some o ∧ o.isArray = true ∧ (o.slot? ("[" ++ i ++ "]")).isSome := by
  cases h.coherent.parts.symbols x hx with
  | root hsteps _ _ =>
      rw [horigin] at hsteps
      exact absurd hsteps (Origin.push_ne_root _ _)
  | @slot base' p' type' o a horigin' hclause' hobject hget =>
      obtain ⟨hbase, rfl⟩ := Origin.push_inj (horigin.symm.trans horigin')
      obtain ⟨-, rfl, -⟩ := h.base_unique hclause hclause' hbase
      rcases HeapObject.get_ok_cases hget with ⟨hlength, -⟩ | ⟨key, ⟨hkey, harray⟩, hslot⟩
      · cases hlength
      · refine ⟨o, hobject, harray i rfl, ?_⟩
        rw [Option.some.inj hkey, hslot, Option.isSome_some]

end Layout

/-- A symbol is in one place. -/
theorem Occupies.unique (h : Layout classes s) (hπ : Occupies s.condition.clauses x π)
    (hπ' : Occupies s.condition.clauses x π') : π = π' := by
  cases hπ with
  | root hroot =>
      cases hπ' with
      | root => rfl
      | field _ horigin' =>
          rw [horigin'] at hroot
          exact absurd hroot (Origin.push_ne_root _ _)
      | element _ horigin' _ =>
          rw [horigin'] at hroot
          exact absurd hroot (Origin.push_ne_root _ _)
  | field hclause horigin =>
      cases hπ' with
      | root hroot' =>
          rw [horigin] at hroot'
          exact absurd hroot' (Origin.push_ne_root _ _)
      | field hclause' horigin' =>
          obtain ⟨hbase, ha⟩ := Origin.push_inj (horigin.symm.trans horigin')
          obtain ⟨-, rfl, -⟩ := h.base_unique hclause hclause' hbase
          rw [Accessor.field.inj ha]
      | element _ horigin' _ => cases (Origin.push_inj (horigin.symm.trans horigin')).2
  | element hclause horigin hk =>
      cases hπ' with
      | root hroot' =>
          rw [horigin] at hroot'
          exact absurd hroot' (Origin.push_ne_root _ _)
      | field _ horigin' => cases (Origin.push_inj (horigin.symm.trans horigin')).2
      | element hclause' horigin' hk' =>
          obtain ⟨hbase, ha⟩ := Origin.push_inj (horigin.symm.trans horigin')
          obtain ⟨-, rfl, -⟩ := h.base_unique hclause hclause' hbase
          obtain rfl := Accessor.index.inj ha
          rw [Int.natCast_inj.1 (Option.some.inj (hk.symm.trans hk'))]

/-- No two symbols are in one place. -/
theorem Occupies.inj (h : Layout classes s) (hx : x ∈ s.symbols.symbols)
    (hy : y ∈ s.symbols.symbols) (hxπ : Occupies s.condition.clauses x π)
    (hyπ : Occupies s.condition.clauses y π) : x = y := by
  cases hxπ with
  | root hroot =>
      generalize hplace : Place.binding (rootVariable x.origin.root) = place at hyπ
      cases hyπ with
      | root hroot' => exact h.eq_of_rootVariable hx hy hroot hroot' (Place.binding.inj hplace)
      | field => cases hplace
      | element => cases hplace
  | @field base p type name hclause horigin =>
      generalize hplace : Place.field (addressOf s.condition.clauses p) name = place at hyπ
      cases hyπ with
      | root => cases hplace
      | field hclause' horigin' =>
          obtain ⟨haddress, rfl⟩ := Place.field.inj hplace
          obtain ⟨rfl, -⟩ := h.base_of_address hclause hclause' haddress
          exact h.eq_of_origin hx hy (by rw [horigin, horigin'])
      | element => cases hplace
  | @element base p type i k hclause horigin hk =>
      generalize hplace : Place.element (addressOf s.condition.clauses p) k = place at hyπ
      cases hyπ with
      | root => cases hplace
      | field => cases hplace
      | element hclause' horigin' hk' =>
          obtain ⟨haddress, rfl⟩ := Place.element.inj hplace
          obtain ⟨rfl, rfl⟩ := h.base_of_address hclause hclause' haddress
          -- Both are elements of one array, where an index is spelled in one way.
          obtain ⟨o, ho, harray, hslot⟩ := h.slot_of_element hx hclause horigin
          obtain ⟨o', ho', -, hslot'⟩ := h.slot_of_element hy hclause horigin'
          rw [ho] at ho'
          obtain rfl := Option.some.inj ho'
          have hspelled := h.indices _ o ho harray _ _ _ hslot hslot' hk hk'
          exact h.eq_of_origin hx hy (by rw [horigin, horigin', hspelled])

/-- The variable that the value of a symbol is computed in is the place of no
    symbol. -/
theorem Occupies.ne_computed {clauses : List Clause} (hπ : Occupies clauses x π) (n : PrimSymbol) :
    π ≠ .binding (symbolVariable n) := by
  intro heq
  cases hπ with
  | root => exact absurd (Place.binding.inj heq).symm (symbolVariable_ne_rootVariable _ _)
  | field => cases heq
  | element => cases heq

/-- A place belongs to one symbol. -/
theorem Stores.inj (h : Layout classes s) (hx : x ∈ s.symbols.symbols) (hy : y ∈ s.symbols.symbols)
    (hxπ : Stores s.condition.clauses x π) (hyπ : Stores s.condition.clauses y π) : x = y := by
  cases hxπ with
  | own hxπ =>
      cases hyπ with
      | own hyπ => exact hxπ.inj h hx hy hyπ
      | computed => exact absurd rfl (hxπ.ne_computed _)
  | @computed n hnested =>
      generalize hplace : Place.binding (symbolVariable n) = place at hyπ
      cases hyπ with
      | own hyπ => exact absurd hplace.symm (hyπ.ne_computed _)
      | computed =>
          exact h.coherent.parts.table.eq_of_number hx hy
            (symbolVariable_inj (Place.binding.inj hplace))

/-- An element is created under a number that is not negative. -/
theorem exists_index {i : String} (h : PathState.isElementIndex i = true) :
    ∃ k : Nat, Number.parseDecimal32 i.toList = some k := by
  unfold PathState.isElementIndex at h
  split at h
  · rename_i k hk
    obtain ⟨n, rfl⟩ := Int.eq_ofNat_of_zero_le (of_decide_eq_true h)
    exact ⟨n, hk⟩
  · exact absurd h Bool.false_ne_true

end TestCase

end PathWitness
