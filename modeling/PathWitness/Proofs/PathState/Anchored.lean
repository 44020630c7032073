import PathWitness.Proofs.PathState.Follows

/-!
# Where the Symbols of a Path Come From

Every symbol of a path is the value of a variable, or it was created in a slot of
an object, and then the reference to the object was expanded before. So a symbol
that a clause mentions hangs on the clauses in front of it: following its origin
step by step passes through references that these clauses have expanded, and
each step leads to a slot that the object has.

An array stands right before the condition on its length, and the condition is
about the symbol that the table has for the length.

None of this is checked when a test is made of a path. It holds because symbols
are given out in no other way, and paths assume conditions about their own
symbols alone (`Conduct.ownSymbols`).

## Main definitions

* `Clause.Mentions`: The symbols of a clause.
* `Anchored`: A symbol hangs on clauses.
* `Rooted`: Every clause is about symbols that hang on the clauses before it.
* `Measures`, `Sized`: Every array is followed by the condition on its length.
* `PathState.Grounded`: All of this.

## Theorems

* `Rooted.anchored`: What clauses mention hangs on them.
* `Rooted.snoc`, `Sized.snoc`, `Sized.snoc_array`: One more clause.
* `Change.grounded`: A change of a state.
* `grounded_of_follows`: Every state of a path that starts at an entry.
* `Follows.resolve_node`: One more reference of a path is resolved.
-/

namespace PathWitness

/-- The symbols of a clause: the reference that it resolves, or the symbols of
    the condition. -/
inductive Clause.Mentions : Clause → Symbol → Prop where
  | resolved (ref : RefSymbol) (how : Resolution) : Mentions (.resolve ref how) (.ref ref)
  | occurs {c : Term} {x : PrimSymbol} (hx : x ∈ c.occurrences) : Mentions (.assume c) (.prim x)

/-- A symbol hangs on clauses: its origin is a variable, or a slot of an object to
    which a reference was expanded that hangs on them too. The symbol of an element has
    the type of the members. -/
inductive Anchored (classes : ClassTable) (frame : List Variable) (clauses : List Clause) :
    Symbol → Prop where
  | root {x : Symbol} {v : Variable} (hv : v ∈ frame) (horigin : x.origin = .ofRoot v.name) :
    Anchored classes frame clauses x
  | slot {x : Symbol} {base : RefSymbol} {p : Int} {type : String} {a : Accessor}
    (hbase : Anchored classes frame clauses (.ref base))
    (hclause : .resolve base (.fresh p type) ∈ clauses) (horigin : x.origin = base.origin.push a)
    (ha : Offers classes type a ∨
      a = .length ∧ Descriptor.isArray type = true ∧ ∃ n, x = .prim n)
    (hmember : ∀ i, a = .index i → Descriptor.member type = .ok x.type) :
    Anchored classes frame clauses x

/-- Every clause is about symbols of a table that hang on the clauses before it. -/
def Rooted (classes : ClassTable) (frame : List Variable) (t : SymbolTable)
    (clauses : List Clause) : Prop :=
  ∀ done c rest, clauses = done ++ c :: rest → ∀ x, c.Mentions x →
    x ∈ t.symbols ∧ Anchored classes frame done x

/-- The symbol for the length of the object that a reference is expanded to: the
    one that the table has there. Names with dots in them can make it a symbol
    that was there before. -/
structure Measures (classes : ClassTable) (frame : List Variable) (t : SymbolTable)
    (done : List Clause) (ref : RefSymbol) (n : PrimSymbol) : Prop where
  type : n.type = .int
  found : t.find? (ref.origin.push .length) = some (.prim n)
  origin : n.origin = ref.origin.push .length ∨ Anchored classes frame done (.prim n)

/-- Every array is followed by the condition that its length is not negative. -/
def Sized (classes : ClassTable) (frame : List Variable) (t : SymbolTable)
    (clauses : List Clause) : Prop :=
  ∀ done ref p type rest, clauses = done ++ .resolve ref (.fresh p type) :: rest →
    Descriptor.isArray type = true → ∃ n rest', rest = .assume (lengthCondition n) :: rest' ∧
      Measures classes frame t done ref n

/-- Symbols, and the clauses that mention them, come from somewhere. -/
structure PathState.Grounded (classes : ClassTable) (s : PathState) : Prop where
  symbols : ∀ x ∈ s.symbols.symbols, Anchored classes s.frame s.condition.clauses x
  clauses : Rooted classes s.frame s.symbols s.condition.clauses
  arrays : Sized classes s.frame s.symbols s.condition.clauses

section Lists

variable {classes : ClassTable} {frame frame' : List Variable} {t t' : SymbolTable}
  {clauses clauses' : List Clause} {c : Clause} {x : Symbol}

theorem Anchored.mono (hframe : ∀ v ∈ frame, v ∈ frame') (hclauses : ∀ c ∈ clauses, c ∈ clauses')
    (h : Anchored classes frame clauses x) : Anchored classes frame' clauses' x := by
  induction h with
  | root hv horigin => exact .root (hframe _ hv) horigin
  | slot _ hclause horigin ha hmember ih =>
      exact .slot ih (hclauses _ hclause) horigin ha hmember

/-- A list with one more element is split at the last element or before it. -/
theorem append_singleton_eq {α : Type} {l done rest : List α} {a b : α}
    (h : l ++ [a] = done ++ b :: rest) :
    (l = done ∧ a = b ∧ rest = []) ∨ ∃ rest', rest = rest' ++ [a] ∧ l = done ++ b :: rest' := by
  rcases List.eq_nil_or_concat rest with rfl | ⟨rest', last, rfl⟩
  · obtain ⟨hl, hab⟩ := List.append_inj' h rfl
    exact .inl ⟨hl, List.singleton_inj.1 hab, rfl⟩
  · rw [List.concat_eq_append, ← List.cons_append, ← List.append_assoc] at h
    obtain ⟨hl, hlast⟩ := List.append_inj' h rfl
    rw [List.concat_eq_append, List.singleton_inj.1 hlast]
    exact .inr ⟨rest', rfl, hl⟩

theorem Rooted.mono (ht : t.symbols <+: t'.symbols) (hframe : ∀ v ∈ frame, v ∈ frame')
    (h : Rooted classes frame t clauses) : Rooted classes frame' t' clauses := by
  intro done c rest heq x hx
  obtain ⟨hmem, hanchored⟩ := h done c rest heq x hx
  exact ⟨ht.subset hmem, hanchored.mono hframe fun _ hc => hc⟩

/-- What one of the first clauses mentions hangs on these clauses. -/
theorem Rooted.anchored {done rest : List Clause} (h : Rooted classes frame t clauses)
    (hclauses : clauses = done ++ rest) (hc : c ∈ done) (hx : c.Mentions x) :
    Anchored classes frame done x := by
  obtain ⟨before, after, rfl⟩ := List.append_of_mem hc
  rw [List.append_assoc, List.cons_append] at hclauses
  exact (h before c _ hclauses x hx).2.mono (fun _ hv => hv) fun _ hd => List.mem_append_left _ hd

theorem Rooted.snoc (h : Rooted classes frame t clauses)
    (hc : ∀ x, c.Mentions x → x ∈ t.symbols ∧ Anchored classes frame clauses x) :
    Rooted classes frame t (clauses ++ [c]) := by
  intro done d rest heq x hx
  rcases append_singleton_eq heq with ⟨rfl, rfl, rfl⟩ | ⟨rest', rfl, rfl⟩
  · exact hc x hx
  · exact h done d rest' rfl x hx

theorem Sized.mono (ht : t.symbols <+: t'.symbols) (h : Sized classes frame t clauses) :
    Sized classes frame t' clauses := by
  intro done ref p type rest heq harray
  obtain ⟨n, rest', hrest, hint, hfind, horigin⟩ := h done ref p type rest heq harray
  exact ⟨n, rest', hrest, hint, SymbolTable.find?_mono ht hfind, horigin⟩

theorem Sized.snoc (h : Sized classes frame t clauses)
    (hc : ∀ ref p type, c = .resolve ref (.fresh p type) → Descriptor.isArray type = false) :
    Sized classes frame t (clauses ++ [c]) := by
  intro done ref p type rest heq harray
  rcases append_singleton_eq heq with ⟨rfl, rfl, rfl⟩ | ⟨rest', rfl, rfl⟩
  · exact absurd harray (by rw [hc ref p type rfl]; exact Bool.false_ne_true)
  · obtain ⟨n, rest, rfl, hn⟩ := h done ref p type rest' rfl harray
    exact ⟨n, rest ++ [c], rfl, hn⟩

theorem Sized.snoc_array (h : Sized classes frame t clauses) {ref : RefSymbol} {p : Int}
    {type : String} {n : PrimSymbol} (hn : Measures classes frame t clauses ref n) :
    Sized classes frame t
      (clauses ++ [.resolve ref (.fresh p type), .assume (lengthCondition n)]) := by
  intro done ref' p' type' rest heq harray
  rw [List.append_cons] at heq
  -- The clause that creates an array is the last but one, or an earlier one.
  rcases append_singleton_eq heq with ⟨_, hassume, _⟩ | ⟨rest', rfl, heq'⟩
  · cases hassume
  · rcases append_singleton_eq heq' with ⟨rfl, hresolve, rfl⟩ | ⟨rest, rfl, rfl⟩
    · obtain ⟨rfl, -⟩ := Clause.resolve.inj hresolve
      exact ⟨n, [], rfl, hn⟩
    · obtain ⟨m, rest', rfl, hm⟩ := h done ref' p' type' rest rfl harray
      exact ⟨m, _, rfl, hm⟩

end Lists

/-- Paths that assume conditions about their own symbols. All else may be done. -/
def Conduct.ownSymbols (classes : ClassTable) : Conduct where
  classes := classes
  rules := fun _ => True
  conditions := fun s c => ∀ x ∈ c.occurrences, .prim x ∈ s.symbols.symbols
  direct := True

variable {classes : ClassTable} {s s' : PathState}

/-- One more clause about symbols of the path, which creates no array. -/
theorem PathState.Grounded.snoc (h : s.Grounded classes) {pc : PathCondition} {heap : Heap}
    {c : Clause} (hclauses : pc.clauses = s.condition.clauses ++ [c])
    (hmentions : ∀ x, c.Mentions x → x ∈ s.symbols.symbols ∧
      Anchored classes s.frame s.condition.clauses x)
    (harray : ∀ ref p type, c = .resolve ref (.fresh p type) → Descriptor.isArray type = false) :
    { s with heap := heap, condition := pc }.Grounded classes := by
  refine ⟨fun y hy => (h.symbols y hy).mono (fun _ hv => hv) fun d hd => ?_, ?_, ?_⟩
  · rw [hclauses]
    exact List.mem_append_left _ hd
  · rw [hclauses]
    exact h.clauses.snoc hmentions
  · rw [hclauses]
    exact h.arrays.snoc harray

/-- A change keeps where symbols come from. -/
theorem Change.grounded (h : Change classes (Conduct.ownSymbols classes).conditions s s')
    (hs : s.Coherent classes) (hgrounded : s.Grounded classes) : s'.Grounded classes := by
  -- A reference of the path hangs on the clauses so far.
  have hresolved : ∀ {ref : RefSymbol} {how : Resolution}, .ref ref ∈ s.symbols.symbols →
      ∀ x, (Clause.resolve ref how).Mentions x → x ∈ s.symbols.symbols ∧
        Anchored classes s.frame s.condition.clauses x := by
    intro ref how href x hx
    cases hx
    exact ⟨href, hgrounded.symbols _ href⟩
  cases h with
  | @written p o o' a x t hobject hnamed hoffers hsupplies hset hkept hmember =>
      refine ⟨fun y hy => ?_, hgrounded.clauses.mono hsupplies.grows fun _ hv => hv,
        hgrounded.arrays.mono hsupplies.grows⟩
      by_cases hold : y ∈ s.symbols.symbols
      · exact hgrounded.symbols y hold
      · obtain ⟨rfl, horigin⟩ := (hsupplies.mem_cases hy).resolve_left hold
        -- The object was created for a reference, and the new symbol lies behind it.
        rcases hs.parts.owners p o hobject hnamed with ⟨base, type, hclause⟩
        rcases hs.parts.clauses base _ hclause with ⟨o₁, ho₁, rfl, hbase, -⟩
        rw [hobject] at ho₁
        obtain rfl := Option.some.inj ho₁
        exact .slot (hgrounded.symbols _ (hs.parts.references _ _ hclause)) hclause
          (by rw [horigin, hbase]) (.inl hoffers) fun i hi => (hmember i hi).resolve_left hold
  | assumed hmay hgrown =>
      refine hgrounded.snoc hgrown.extends.1 (fun x hx => ?_) fun ref p type heq => by cases heq
      cases hx with
      | occurs hx =>
          have hmem := hmay _ hx
          exact ⟨hmem, hgrounded.symbols _ hmem⟩
  | settled href hold hfits hgrown =>
      exact hgrounded.snoc hgrown.extends.1 (hresolved href) fun ref' p type heq =>
        absurd (Clause.resolve.inj heq).2 (hold p type)
  | object href harray hsub hgrown =>
      refine hgrounded.snoc hgrown.extends.1 (hresolved href) fun ref' p type' heq => ?_
      rw [← (Resolution.fresh.inj (Clause.resolve.inj heq).2).2]
      exact harray
  | @array ref type n t pc href harray hsub hsupplies hint hgrown =>
      have hclauses := hgrown.extends.1
      -- The length lies behind the reference that the first of the two clauses expands.
      have hlength : ∀ y ∈ t.symbols, Anchored classes s.frame
          (s.condition.clauses ++ [.resolve ref (.fresh (s.heap.size + 1) type)]) y := by
        have hold : ∀ c ∈ s.condition.clauses, c ∈ s.condition.clauses ++
            [.resolve ref (.fresh (s.heap.size + 1) type)] := fun c hc => List.mem_append_left _ hc
        intro y hy
        rcases hsupplies.mem_cases hy with hy | ⟨rfl, horigin⟩
        · exact (hgrounded.symbols y hy).mono (fun _ hv => hv) hold
        · exact .slot ((hgrounded.symbols _ href).mono (fun _ hv => hv) hold)
            (List.mem_append_right _ List.mem_cons_self) horigin (.inr ⟨rfl, harray, n, rfl⟩)
            fun i hi => by cases hi
      refine ⟨fun y hy => (hlength y hy).mono (fun _ hv => hv) fun d hd => ?_, ?_, ?_⟩
      · rw [hclauses, List.append_cons]
        exact List.mem_append_left _ hd
      · rw [hclauses, List.append_cons]
        refine Rooted.snoc (Rooted.snoc (hgrounded.clauses.mono hsupplies.grows fun _ hv => hv)
          fun x hx => ?_) fun x hx => ?_
        · obtain ⟨hmem, hanchored⟩ := hresolved href x hx
          exact ⟨hsupplies.grows.subset hmem, hanchored⟩
        · cases hx with
          | occurs hx =>
              rw [List.mem_singleton.1 hx]
              exact ⟨hsupplies.mem, hlength _ hsupplies.mem⟩
      · rw [hclauses]
        refine (hgrounded.arrays.mono hsupplies.grows).snoc_array ⟨hint, hsupplies.find?, ?_⟩
        exact (hsupplies.mem_cases hsupplies.mem).symm.imp (fun hnew => hnew.2)
          (hgrounded.symbols _)
  | thrown type target => exact ⟨hgrounded.symbols, hgrounded.clauses, hgrounded.arrays⟩
  | noted id status returned hstatus =>
      exact ⟨hgrounded.symbols, hgrounded.clauses, hgrounded.arrays⟩

/-- At the entry of a method, every symbol is the value of a variable, and nothing
    is assumed. -/
theorem PathState.enter_grounded (classes : ClassTable) {signature : Signature} {isStatic : Bool}
    {names : List String} (h : enter signature isStatic names = .ok s) : s.Grounded classes := by
  have hblank := (enter_blank h).1
  have hnone : ∀ (done rest : List Clause) c, s.condition.clauses ≠ done ++ c :: rest := by
    intro done rest c heq
    rw [hblank] at heq
    exact absurd heq.symm (List.append_ne_nil_of_right_ne_nil _ (List.cons_ne_nil _ _))
  refine ⟨?_, fun done c rest heq => absurd heq (hnone done rest c),
    fun done ref p type rest heq => absurd heq (hnone done rest _)⟩
  refine enter_induction (P := fun s => ∀ x ∈ s.symbols.symbols,
    Anchored classes s.frame s.condition.clauses x) h (fun x hx => absurd hx List.not_mem_nil) ?_
  intro s name type x t hfree hsupplies hs y hy
  rcases hsupplies.mem_cases hy with hy | ⟨rfl, horigin⟩
  · exact (hs y hy).mono (fun v hv => List.mem_append_left _ hv) fun _ hc => hc
  · exact .root (v := ⟨s.nextSlot, name, type, y⟩)
      (List.mem_append_right _ List.mem_cons_self) horigin

/-- Whatever is done along a path keeps where symbols come from. -/
theorem grounded_respects (classes : ClassTable) : Respects (Conduct.ownSymbols classes)
    fun u v => u.state.Grounded classes → v.state.Grounded classes :=
  .ofFired
    { refl := fun _ hu => hu
      trans := fun huv hvw hu => hvw (huv hu)
      change := fun hcoherent hchange hu => hchange.grounded hcoherent hu
      told := fun _ _ hu => hu }
    fun _ _ _ _ _ _ _ _ _ hu => ⟨hu.symbols, hu.clauses, hu.arrays⟩

/-- In every state of a path that starts at the entry of a method, symbols come
    from somewhere. -/
theorem grounded_of_follows {signature : Signature} {isStatic : Bool} {names : List String}
    {j : Journal} {v : Session} (h : PathState.enter signature isStatic names = .ok s)
    (hfollows : Follows (Conduct.ownSymbols classes) ⟨s, j⟩ v) :
    v.state.Coherent classes ∧ v.state.Grounded classes := by
  obtain ⟨⟨hcoherent, -⟩, hgrounded⟩ :=
    hfollows.under (grounded_respects classes) (PathState.enter_coherent classes h)
  exact ⟨hcoherent, hgrounded (PathState.enter_grounded classes h)⟩

/-- Without any rules, a path goes on by resolving one of its references. -/
theorem Follows.resolve_node {u v : Session} (ref : RefSymbol) (c : Candidate)
    (h : Follows (Conduct.ownSymbols nodeClasses) u v) (href : .ref ref ∈ v.state.symbols.symbols) :
    Follows (Conduct.ownSymbols nodeClasses) u ((nodeEnvironment.resolve ref c).runOn v).2 :=
  .resolve nodeEnvironment ref c h (.symbol href) (.refl v) rfl trivial fun _ hi => by cases hi

end PathWitness
