import PathWitness.Proofs.Heap
import PathWitness.Proofs.PathCondition
import PathWitness.Proofs.SymbolTable
import PathWitness.Resolution

/-!
# Path Condition, Heap and Symbols Agree

Three structures of a path say together where a symbol is: the table has it, the
path condition says to which object the reference before it was expanded, and
the heap has it in a slot of that object. They are written at different times by
different operations. `Coherence` states what holds of the three between
operations, in terms of the parts of a state that matter for it.

All operations only add: clauses, objects, slots and symbols stay as they are
once they are there. So what was said of the old ones stays true, which is
stated once for each kind (`Fits.mono`, `Owned.mono`, `Filled.mono`,
`Placed.mono`), and `Coherence.extend` leaves an operation to account for what it
adds.

## Main definitions

* `Fits`: A clause leads to an object that can be what it says.
* `Owned`: An object that is reached through a reference was created for one.
* `HeapObject.Filled`: Slots hold the symbols at their origins.
* `Placed`: A symbol is where its origin says.
* `Coherence`: All of these at once.
* `PathState.Coherent`: A readable state whose parts agree.

## Theorems

* `Coherence.extend`: Additions that account for themselves keep the parts in
  agreement.
* `Coherence.assumed`: One more assumption.
* `Coherence.written`: A symbol is written to a slot.
* `Coherence.expanded`: A reference is expanded to a new object.
* `Coherence.thrown`: An object is created that no reference leads to.
* `Coherence.bound`: One more variable.
* `PathState.enter_eq_ok`, `PathState.enter_induction`: How the state at the entry of a
  method is made.
-/

namespace PathWitness

/-- A resolution leads to an object that can be used as the static type of the
    reference; a new object is what the clause says. -/
def Fits (classes : ClassTable) (heap : Heap) (ref : RefSymbol) : Resolution → Prop
  | .null => True
  | .fresh p type => ∃ o, heap.get? p = some o ∧ o.type = type ∧ o.origin = ref.origin ∧
      classes.isSubclass type (Environment.staticClass ref) = true
  | .aliasOf p => ∃ o, heap.get? p = some o ∧
      classes.isSubclass o.type (Environment.staticClass ref) = true

/-- An object that is reached through a reference was created for one. -/
def Owned (pc : PathCondition) (p : Int) (o : HeapObject) : Prop :=
  o.origin.isEmpty = false → ∃ ref type, .resolve ref (.fresh p type) ∈ pc.clauses

/-- The length of an array is a symbol, and a slot holds the symbol that the
    table has at the origin of the slot. -/
structure HeapObject.Filled (t : SymbolTable) (o : HeapObject) : Prop where
  length : ∀ n, o.length = some n → ∃ x, n = .symbol x ∧ .prim x ∈ t.symbols
  slots : ∀ key v, o.slot? key = some v →
    ∃ x a, v = some (.ofSymbol x) ∧ o.Names a key ∧ t.find? (o.origin.push a) = some x

/-- A new object that is not an array holds nothing. -/
theorem HeapObject.Filled.blank (t : SymbolTable) (type : String) (origin : Origin) :
    HeapObject.Filled t ⟨type, origin, none, []⟩ where
  length := fun _ hn => absurd hn (by simp only [reduceCtorEq, not_false_eq_true])
  slots := fun _ _ hv => absurd hv (by simp only [HeapObject.slot?, List.lookup_nil, reduceCtorEq,
    not_false_eq_true])

/-- A symbol is where its origin says: it is the value of a variable, or it is
    in a slot of the object that was created for the reference before it. -/
inductive Placed (frame : List Variable) (pc : PathCondition) (heap : Heap) (x : Symbol) : Prop
    where
  | root {v : Variable} (hsteps : x.origin.steps = [])
    (hbound : frame.find? (·.name == x.origin.root) = some v) (hvalue : v.value = x)
  | slot {base : RefSymbol} {p : Int} {type : String} {o : HeapObject} {a : Accessor}
    (horigin : x.origin = base.origin.push a) (hclause : .resolve base (.fresh p type) ∈ pc.clauses)
    (hobject : heap.get? p = some o) (hget : o.get a = .ok (some (.ofSymbol x)))

/-- What holds of the parts of a state between operations. -/
structure Coherence (classes : ClassTable) (frame : List Variable) (pc : PathCondition)
    (heap : Heap) (t : SymbolTable) : Prop where
  /-- The symbols are numbered and found. -/
  table : t.WellFormed
  /-- Clauses and indexes agree. -/
  condition : pc.Consistent
  /-- Variables hold symbols of the path. -/
  values : ∀ v ∈ frame, v.value ∈ t.symbols
  /-- Clauses resolve references of the path. -/
  references : ∀ ref how, .resolve ref how ∈ pc.clauses → .ref ref ∈ t.symbols
  /-- Clauses lead to objects that fit. -/
  clauses : ∀ ref how, .resolve ref how ∈ pc.clauses → Fits classes heap ref how
  /-- Objects were created for references, unless no reference leads to them. -/
  owners : ∀ p o, heap.get? p = some o → Owned pc p o
  /-- Objects hold symbols of the path. -/
  contents : ∀ p o, heap.get? p = some o → o.Filled t
  /-- Symbols are where their origins say. -/
  symbols : ∀ x ∈ t.symbols, Placed frame pc heap x

/-- A readable state whose parts agree. -/
structure PathState.Coherent (classes : ClassTable) (s : PathState) : Prop where
  readable : s.status ≠ .released
  parts : Coherence classes s.frame s.condition s.heap s.symbols

section Monotone

variable {classes : ClassTable} {frame frame' : List Variable} {pc pc' : PathCondition}
  {heap heap' : Heap} {t t' : SymbolTable}

theorem Fits.mono (hheap : heap.Extends heap') {ref : RefSymbol} {how : Resolution}
    (h : Fits classes heap ref how) : Fits classes heap' ref how := by
  cases how with
  | null => exact trivial
  | fresh p type =>
      rcases h with ⟨o, ho, htype, horigin, hsub⟩
      rcases hheap p o ho with ⟨o', ho', hext⟩
      exact ⟨o', ho', hext.type.trans htype, hext.origin.trans horigin, hsub⟩
  | aliasOf p =>
      rcases h with ⟨o, ho, hsub⟩
      rcases hheap p o ho with ⟨o', ho', hext⟩
      exact ⟨o', ho', by rw [hext.type]; exact hsub⟩

theorem Owned.mono (hclauses : ∀ c ∈ pc.clauses, c ∈ pc'.clauses) {p : Int} {o : HeapObject}
    (h : Owned pc p o) : Owned pc' p o := by
  intro hnamed
  rcases h hnamed with ⟨ref, type, hc⟩
  exact ⟨ref, type, hclauses _ hc⟩

theorem HeapObject.Filled.mono (ht : t.symbols <+: t'.symbols) {o : HeapObject} (h : o.Filled t) :
    o.Filled t' := by
  refine ⟨fun n hn => ?_, fun key v hv => ?_⟩
  · rcases h.length n hn with ⟨x, hx, hmem⟩
    exact ⟨x, hx, ht.subset hmem⟩
  · rcases h.slots key v hv with ⟨x, a, hx, ha, hfind⟩
    exact ⟨x, a, hx, ha, SymbolTable.find?_mono ht hfind⟩

theorem Placed.mono (hframe : frame <+: frame') (hclauses : ∀ c ∈ pc.clauses, c ∈ pc'.clauses)
    (hheap : heap.Extends heap') {x : Symbol} (h : Placed frame pc heap x) :
    Placed frame' pc' heap' x := by
  cases h with
  | root hsteps hbound hvalue => exact .root hsteps (hframe.find?_eq_some hbound) hvalue
  | slot horigin hclause hobject hget =>
      rcases hheap _ _ hobject with ⟨o', ho', hext⟩
      exact .slot horigin (hclauses _ hclause) ho' (hext.get hget)

/-- Additions that account for themselves keep the parts in agreement. -/
theorem Coherence.extend (h : Coherence classes frame pc heap t) (hpc : pc'.Consistent)
    (ht : t'.WellFormed) (hheap : heap.Extends heap') (hsymbols : t.symbols <+: t'.symbols)
    (hclauses : ∀ c ∈ pc.clauses, c ∈ pc'.clauses)
    (hnewClauses : ∀ ref how, .resolve ref how ∈ pc'.clauses → .resolve ref how ∈ pc.clauses ∨
      .ref ref ∈ t.symbols ∧ Fits classes heap' ref how)
    (howners : ∀ p o, heap'.get? p = some o → Owned pc' p o)
    (hcontents : ∀ p o, heap'.get? p = some o → o.Filled t')
    (hnewSymbols : ∀ x ∈ t'.symbols, x ∈ t.symbols ∨ Placed frame pc' heap' x) :
    Coherence classes frame pc' heap' t' where
  table := ht
  condition := hpc
  values := fun v hv => hsymbols.subset (h.values v hv)
  references := fun ref how hc => (hnewClauses ref how hc).elim
    (fun hold => hsymbols.subset (h.references ref how hold)) (fun hnew => hsymbols.subset hnew.1)
  clauses := fun ref how hc => (hnewClauses ref how hc).elim
    (fun hold => (h.clauses ref how hold).mono hheap) (fun hnew => hnew.2)
  owners := howners
  contents := hcontents
  symbols := fun x hx => (hnewSymbols x hx).elim
    (fun hold => (h.symbols x hold).mono (List.prefix_refl _) hclauses hheap) id

end Monotone

namespace Coherence

variable {classes : ClassTable} {frame : List Variable} {pc pc' : PathCondition} {heap : Heap}
  {t t' : SymbolTable}

theorem empty (classes : ClassTable) : Coherence classes [] {} {} {} where
  table := .empty
  condition := .empty
  values := fun v hv => absurd hv List.not_mem_nil
  references := fun ref how hc => absurd hc List.not_mem_nil
  clauses := fun ref how hc => absurd hc List.not_mem_nil
  owners := fun p o ho => absurd (Heap.pos_of_get? ho)
    (by simp only [Heap.size, List.length_nil]; omega)
  contents := fun p o ho => absurd (Heap.pos_of_get? ho)
    (by simp only [Heap.size, List.length_nil]; omega)
  symbols := fun x hx => absurd hx List.not_mem_nil

/-- An object of the heap holds symbols of the path and nothing else. -/
theorem value_of_get (h : Coherence classes frame pc heap t) {p : Int} {o : HeapObject}
    (ho : heap.get? p = some o) {a : Accessor} {v : Option Value} (hget : o.get a = .ok v) :
    ∃ x ∈ t.symbols, v = some (.ofSymbol x) := by
  rcases HeapObject.get_ok_cases hget with ⟨_, n, hn, rfl⟩ | ⟨key, _, hslot⟩
  · rcases (h.contents p o ho).length n hn with ⟨x, rfl, hx⟩
    exact ⟨.prim x, hx, rfl⟩
  · rcases (h.contents p o ho).slots key v hslot with ⟨x, a', rfl, _, hfind⟩
    exact ⟨x, SymbolTable.mem_of_find? hfind, rfl⟩

/-- Within a path, references with the same origin are the same, and resolved in
    one way. -/
theorem resolve_unique (h : Coherence classes frame pc heap t) {ref ref' : RefSymbol}
    {how how' : Resolution} (hc : .resolve ref how ∈ pc.clauses)
    (hc' : .resolve ref' how' ∈ pc.clauses) (htext : ref.origin.text = ref'.origin.text) :
    ref = ref' ∧ how = how' := by
  have hfound := h.table.found _ (h.references ref how hc)
  have hfound' := h.table.found _ (h.references ref' how' hc')
  have hsame : t.find? ref.origin = t.find? ref'.origin := by
    rw [SymbolTable.find?, SymbolTable.find?, htext]
  have href : ref = ref' := by
    rw [Symbol.origin] at hfound hfound'
    exact Symbol.ref.inj (Option.some.inj (hfound.symm.trans (hsame.trans hfound')))
  subst href
  have hhow := (h.condition.resolution?_eq hc).symm.trans (h.condition.resolution?_eq hc')
  exact ⟨rfl, (Prod.mk.inj (Option.some.inj hhow)).2⟩

/-- One more assumption, whose resolutions fit. -/
theorem assumed (h : Coherence classes frame pc heap t) {added : List Clause}
    (hgrown : pc.Grown added pc') (hadded : ∀ ref how, .resolve ref how ∈ added →
      .ref ref ∈ t.symbols ∧ Fits classes heap ref how) : Coherence classes frame pc' heap t := by
  have hclauses : ∀ c ∈ pc.clauses, c ∈ pc'.clauses := by
    rw [hgrown.extends.1]
    exact fun c hc => List.mem_append_left _ hc
  refine h.extend (h.condition.grown hgrown) h.table (.refl heap) (List.prefix_refl _) hclauses
    (fun ref how hc => ?_) (fun p o ho => (h.owners p o ho).mono hclauses) h.contents
    (fun x hx => .inl hx)
  rw [hgrown.extends.1] at hc
  exact (List.mem_append.1 hc).imp id (hadded ref how)

/-- The symbol at the origin of a slot is written to the slot. -/
theorem written (h : Coherence classes frame pc heap t) {p : Int} {o o' : HeapObject}
    {a : Accessor} {x : Symbol} (hobject : heap.get? p = some o)
    (hnamed : o.origin.isEmpty = false) (hsupplies : t.Supplies (o.origin.push a) x t')
    (hset : o.set a (some (.ofSymbol x)) = .ok o')
    (hkept : ∀ key w, o.Names a key → o.slot? key = some w → w = some (.ofSymbol x)) :
    Coherence classes frame pc (heap.replace p o') t' := by
  -- Nothing that could be read is lost, so only the written slot, and the symbol
  -- in it if that is new, have to be accounted for.
  have hext : o.Extends o' := HeapObject.extends_of_set hset hkept
  have hheap : heap.Extends (heap.replace p o') := Heap.extends_replace hobject hext
  have hold : ∀ q r, (heap.replace p o').get? q = some r →
      q = p ∧ r = o' ∨ heap.get? q = some r := by
    intro q r hr
    rw [Heap.get?_replace hobject] at hr
    by_cases hq : q = p
    · rw [if_pos hq] at hr
      exact .inl ⟨hq, (Option.some.inj hr).symm⟩
    · rw [if_neg hq] at hr
      exact .inr hr
  refine h.extend h.condition (hsupplies.wellFormed h.table) hheap hsupplies.grows
    (fun c hc => hc) (fun ref how hc => .inl hc) (fun q r hr => ?_) (fun q r hr => ?_)
    (fun y hy => ?_)
  · rcases hold q r hr with ⟨rfl, rfl⟩ | hr
    · intro hr'
      exact h.owners q o hobject (by rwa [hext.origin] at hr')
    · exact h.owners q r hr
  · rcases hold q r hr with ⟨rfl, rfl⟩ | hr
    · have hfilled := (h.contents q o hobject).mono hsupplies.grows
      rcases HeapObject.set_spec hset with ⟨key, hkey, rfl⟩
      refine ⟨hfilled.length, fun k v hv => ?_⟩
      -- Only the slot with this key has another value than before.
      by_cases hk : k = key
      · rw [hk] at hv ⊢
        have hv' : some (some (Value.ofSymbol x)) = some v := lookup_putSlot_self.symm.trans hv
        exact ⟨x, a, (Option.some.inj hv').symm, hkey, hsupplies.find?⟩
      · exact hfilled.slots k v ((lookup_putSlot_other hk).symm.trans hv)
    · exact (h.contents q r hr).mono hsupplies.grows
  · rcases hsupplies.mem_cases hy with hy | ⟨rfl, hy⟩
    · exact .inl hy
    · -- The object was created for a reference, which the new symbol lies behind.
      rcases h.owners p o hobject hnamed with ⟨base, type, hclause⟩
      rcases h.clauses base _ hclause with ⟨o₁, ho₁, _, horigin, _⟩
      rw [hobject] at ho₁
      rw [← Option.some.inj ho₁] at horigin
      refine .inr (.slot (hy.trans (by rw [horigin])) hclause ?_ (HeapObject.get_of_set hset))
      rw [Heap.get?_replace hobject, if_pos rfl]

/-- A reference is expanded to a new object, together with the symbols that the
    object has from the start. -/
theorem expanded (h : Coherence classes frame pc heap t) {ref : RefSymbol} {o : HeapObject}
    {added : List Clause} (href : .ref ref ∈ t.symbols) (horigin : o.origin = ref.origin)
    (hsub : classes.isSubclass o.type (Environment.staticClass ref) = true)
    (hgrown : pc.Grown added pc') (hadded : ∀ ref' how, .resolve ref' how ∈ added ↔
      ref' = ref ∧ how = .fresh (heap.size + 1) o.type)
    (ht : t'.WellFormed) (hsymbols : t.symbols <+: t'.symbols) (hfilled : o.Filled t')
    (hnew : ∀ x ∈ t'.symbols, x ∈ t.symbols ∨
      ∃ a, x.origin = ref.origin.push a ∧ o.get a = .ok (some (.ofSymbol x))) :
    Coherence classes frame pc' (heap.allocate o).2 t' := by
  have hclauses : ∀ c ∈ pc.clauses, c ∈ pc'.clauses := by
    rw [hgrown.extends.1]
    exact fun c hc => List.mem_append_left _ hc
  -- The new object stands behind all others, where the new clause says.
  have hobject : (heap.allocate o).2.get? (heap.size + 1) = some o :=
    Heap.get?_allocate.2 (.inr ⟨rfl, rfl⟩)
  have hclause : .resolve ref (.fresh (heap.size + 1) o.type) ∈ pc'.clauses := by
    rw [hgrown.extends.1]
    exact List.mem_append_right _ ((hadded ref _).2 ⟨rfl, rfl⟩)
  refine h.extend (h.condition.grown hgrown) ht (Heap.extends_allocate heap o) hsymbols hclauses
    (fun ref' how hc => ?_) (fun p o' ho' => ?_) (fun p o' ho' => ?_) (fun x hx => ?_)
  · -- A clause that resolves is old, or the one that creates the object.
    rw [hgrown.extends.1] at hc
    rcases List.mem_append.1 hc with hc | hc
    · exact .inl hc
    · obtain ⟨rfl, rfl⟩ := (hadded ref' how).1 hc
      exact .inr ⟨href, o, hobject, rfl, horigin, hsub⟩
  · rcases Heap.get?_allocate.1 ho' with ho' | ⟨rfl, rfl⟩
    · exact (h.owners p o' ho').mono hclauses
    · exact fun _ => ⟨ref, o.type, hclause⟩
  · rcases Heap.get?_allocate.1 ho' with ho' | ⟨rfl, rfl⟩
    · exact (h.contents p o' ho').mono hsymbols
    · exact hfilled
  · rcases hnew x hx with hx | ⟨a, hxa, hget⟩
    · exact .inl hx
    · exact .inr (.slot hxa hclause hobject hget)

/-- An object is created that no reference leads to. -/
theorem thrown (h : Coherence classes frame pc heap t) {o : HeapObject}
    (hempty : o.origin.isEmpty = true) (hfilled : o.Filled t) :
    Coherence classes frame pc (heap.allocate o).2 t := by
  refine h.extend h.condition h.table (Heap.extends_allocate heap o) (List.prefix_refl _)
    (fun c hc => hc) (fun ref how hc => .inl hc) (fun p o' ho' => ?_) (fun p o' ho' => ?_)
    (fun x hx => .inl hx)
  · rcases Heap.get?_allocate.1 ho' with ho' | ⟨rfl, rfl⟩
    · exact h.owners p o' ho'
    · exact fun hnamed => absurd (hempty.symm.trans hnamed) Bool.noConfusion
  · rcases Heap.get?_allocate.1 ho' with ho' | ⟨rfl, rfl⟩
    · exact h.contents p o' ho'
    · exact hfilled

/-- One more variable holds the symbol rooted at its name. -/
theorem bound (h : Coherence classes frame pc heap t) {name : String} {x : Symbol}
    (hfree : frame.find? (·.name == name) = none) (hsupplies : t.Supplies (.ofRoot name) x t')
    (slot : Nat) (type : String) :
    Coherence classes (frame ++ [⟨slot, name, type, x⟩]) pc heap t' where
  table := hsupplies.wellFormed h.table
  condition := h.condition
  values := fun v hv => by
    rcases List.mem_append.1 hv with hv | hv
    · exact hsupplies.grows.subset (h.values v hv)
    · rw [List.mem_singleton.1 hv]
      exact hsupplies.mem
  references := fun ref how hc => hsupplies.grows.subset (h.references ref how hc)
  clauses := h.clauses
  owners := h.owners
  contents := fun p o ho => (h.contents p o ho).mono hsupplies.grows
  symbols := fun y hy => by
    rcases hsupplies.mem_cases hy with hy | ⟨rfl, hy⟩
    · exact (h.symbols y hy).mono (List.prefix_append _ _) (fun c hc => hc) (.refl heap)
    · -- No variable before it has the name, so the new one is found.
      have hname : y.origin.root = name := by rw [hy, Origin.ofRoot]
      refine .root (v := ⟨slot, name, type, y⟩) (by rw [hy, Origin.ofRoot]) ?_ rfl
      rw [hname, List.find?_append, hfree, Option.none_or, List.find?_cons, beq_self_eq_true]

end Coherence

namespace PathState

variable {classes : ClassTable} {s s' s'' : PathState}

/-- An operation keeps a state coherent and its symbols in place. -/
def Kept (classes : ClassTable) (s s' : PathState) : Prop :=
  s.Coherent classes → s'.Coherent classes ∧ s.symbols.symbols <+: s'.symbols.symbols

theorem Kept.refl (classes : ClassTable) (s : PathState) : Kept classes s s :=
  fun h => ⟨h, List.prefix_refl _⟩

theorem Kept.trans (h : Kept classes s s') (h' : Kept classes s' s'') : Kept classes s s'' := by
  intro hs
  rcases h hs with ⟨hs', hsymbols⟩
  rcases h' hs' with ⟨hs'', hsymbols'⟩
  exact ⟨hs'', hsymbols.trans hsymbols'⟩

/-- Adding a variable whose name is not bound keeps a state coherent. -/
theorem Coherent.push (h : s.Coherent classes) {name type : String} {x : Symbol} {t : SymbolTable}
    (hfree : s.binding? name = none) (hsupplies : s.symbols.Supplies (.ofRoot name) x t) :
    (s.push name type x t).Coherent classes :=
  ⟨h.readable, h.parts.bound hfree hsupplies s.nextSlot type⟩

/-- A parameter is bound to a name that is not taken, and then the others are. -/
theorem bindParameters_cons {names : List String} {i : Nat} {p : Parameter}
    {rest : List Parameter} (h : bindParameters names i (p :: rest) s = .ok s') :
    s.binding? (parameterName names i) = none ∧
      ∃ s₁, s.bindParameter (parameterName names i) p = .ok s₁ ∧
        bindParameters names (i + 1) rest s₁ = .ok s' := by
  simp only [bindParameters] at h
  split at h
  · exact absurd h (by simp only [reduceCtorEq, not_false_eq_true])
  · rename_i hfree
    split at h
    · exact absurd h (by simp only [reduceCtorEq, not_false_eq_true])
    · rename_i s₁ hparameter
      refine ⟨?_, s₁, hparameter, h⟩
      rwa [Bool.not_eq_true, Option.isSome_eq_false_iff, Option.isNone_iff_eq_none] at hfree

/-- What holds of a state and is kept by one more variable holds after all
    parameters are bound. -/
theorem bindParameters_induction {P : PathState → Prop}
    (hpush : ∀ (s : PathState) (name type : String) (x : Symbol) (t : SymbolTable),
      s.binding? name = none → s.symbols.Supplies (.ofRoot name) x t → P s →
      P (s.push name type x t))
    {names : List String} {i : Nat} {parameters : List Parameter}
    (hbind : bindParameters names i parameters s = .ok s') (h : P s) : P s' := by
  induction parameters generalizing s i with
  | nil =>
      rw [← Except.ok.inj hbind]
      exact h
  | cons p rest ih =>
      obtain ⟨hfree, s₁, hparameter, hrest⟩ := bindParameters_cons hbind
      refine ih hrest ?_
      unfold bindParameter at hparameter
      split at hparameter
      · exact absurd hparameter (by simp only [reduceCtorEq, not_false_eq_true])
      · rcases bind_eq_ok (ok_of_mapError hparameter) with ⟨⟨x, t⟩, hsymbol, hs₁⟩
        rw [← Except.ok.inj hs₁]
        exact hpush s _ _ x t hfree (SymbolTable.symbolOf_supplies hsymbol) h

/-- A method is entered with its parameters, behind a receiver unless it is static. -/
theorem enter_eq_ok {signature : Signature} {isStatic : Bool} {names : List String}
    (h : enter signature isStatic names = .ok s) :
    ∃ parameters s₁, Descriptor.parameters signature.descriptor = .ok parameters ∧
      (if isStatic then s₁ = { signature := signature, isStatic := isStatic }
        else bindReceiver { signature := signature, isStatic := isStatic } = .ok s₁) ∧
      bindParameters names 0 parameters s₁ = .ok s := by
  unfold enter at h
  rcases bind_eq_ok h with ⟨parameters, hparameters, h⟩
  rcases bind_eq_ok h with ⟨_, _, h⟩
  refine ⟨parameters, ?_⟩
  cases isStatic with
  | true => exact ⟨_, ok_of_mapError hparameters, rfl, h⟩
  | false =>
      rcases bind_eq_ok h with ⟨s₁, hreceiver, h⟩
      exact ⟨s₁, ok_of_mapError hparameters, ok_of_mapError hreceiver, h⟩

/-- The state at the entry of a method is made of an empty one, by adding one
    variable after the other. -/
theorem enter_induction {P : PathState → Prop} {signature : Signature} {isStatic : Bool}
    {names : List String} (h : enter signature isStatic names = .ok s)
    (hempty : P { signature := signature, isStatic := isStatic })
    (hpush : ∀ (s : PathState) (name type : String) (x : Symbol) (t : SymbolTable),
      s.binding? name = none → s.symbols.Supplies (.ofRoot name) x t → P s →
      P (s.push name type x t)) : P s := by
  obtain ⟨parameters, s₁, -, hreceiver, hbind⟩ := enter_eq_ok h
  refine bindParameters_induction hpush hbind ?_
  -- Only a method that is not static binds a receiver before its parameters.
  cases isStatic with
  | true =>
      rw [if_pos rfl] at hreceiver
      rw [hreceiver]
      exact hempty
  | false =>
      rcases bind_eq_ok hreceiver with ⟨⟨x, t⟩, hsymbol, hs₁⟩
      rw [← Except.ok.inj hs₁]
      exact hpush _ _ _ _ t rfl (SymbolTable.reference_supplies hsymbol) hempty

/-- The state at the entry of a method is coherent, whatever the classes are. -/
theorem enter_coherent (classes : ClassTable) {signature : Signature} {isStatic : Bool}
    {names : List String} (h : enter signature isStatic names = .ok s) : s.Coherent classes :=
  enter_induction h ⟨by simp only [ne_eq, reduceCtorEq, not_false_eq_true], .empty classes⟩
    fun _ _ _ _ _ hfree hsupplies hs => hs.push hfree hsupplies

/-- Nothing has happened at the entry of a method. -/
theorem enter_blank {signature : Signature} {isStatic : Bool} {names : List String}
    (h : enter signature isStatic names = .ok s) :
    s.condition = {} ∧ s.heap = {} ∧ s.fired = [] :=
  enter_induction (P := fun s => s.condition = {} ∧ s.heap = {} ∧ s.fired = []) h ⟨rfl, rfl, rfl⟩
    fun _ _ _ _ _ _ _ hs => hs

end PathState

end PathWitness
