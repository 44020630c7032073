import PathWitness.Proofs.TestCase.Holding

/-!
# What the Statements of a Test Bring About

The statements for a path are made clause by clause, and each clause needs
something of those before it: a nested reference is stored through the variable
of its root, an alias is read where its object was first reached, an array takes
its length from a variable. `Realises` says what running the statements for the
clauses so far has achieved. A symbol that gets a variable keeps the clauses as
they are, and a reference that gets its value is one clause more.

## Main definitions

* `Realises`: The statements so far have brought about the clauses so far.

## Theorems

* `Holds.readAt`, `Holds.store`: Reading and storing at the origin of a symbol.
* `bindSymbol_realises`: A symbol gets a variable, and its value where it is.
* `setReference_realises`: A reference gets its value where it is.
* `newObject_realises`, `makeAlias_realises`: A new object, and one that is there.
-/

namespace PathWitness

namespace TestCase

open Setup

/-- The variable of a primitive symbol. -/
def variableOf (x : PrimSymbol) : String :=
  if x.origin.isRoot then rootVariable x.origin.root else symbolVariable x

/-- What statements depend on is taken from a path and a model, and nothing of the
    path was there before it began. -/
structure Describes (ctx : Context) (s : PathState) (m : Model) : Prop where
  model : ctx.model = m
  condition : ctx.condition = s.condition
  initial : ∀ v ∈ s.frame, v.name ∉ ctx.initialRoots

/-- The statements so far can be run, and have brought about the clauses so far. -/
structure Realises (classes : ClassTable) (s : PathState) (m : Model) (done : List Clause)
    (st : Setup) (j : JavaState) : Prop where
  run : runStatements classes st.statements {} = .ok j
  size : j.heap.length = (expandedPositions done).length
  holds : Holds classes s m (Known s m done st.bindings) done j
  /-- The roots that were resolved can be stored into. -/
  roots : ∀ ref how, .resolve ref how ∈ done → ref.origin.steps = [] → ref.origin.root ∈ st.roots
  names : ∀ x name, .prim x ∈ s.symbols.symbols → st.nameOf? x.id = some name → name = variableOf x
  bound : ∀ c x, .assume c ∈ done → (Clause.assume c).Mentions (.prim x) → (st.nameOf? x.id).isSome

variable {classes : ClassTable} {s : PathState} {m : Model} {done rest : List Clause}
  {names names' : List (String × String)} {st : Setup} {j j' : JavaState} {ctx : Context}
  {x : Symbol} {π : Place} {w : JavaValue} {held : Place → JavaValue → Prop}

section Statements

theorem runStatements_snoc {statements : List Statement} {statement : Statement}
    (h : runStatements classes statements {} = .ok j) (hexec : statement.exec classes j = .ok j') :
    runStatements classes (statements ++ [statement]) {} = .ok j' := by
  unfold runStatements at h ⊢
  rw [List.foldlM_append, h]
  change (statement.exec classes j >>= pure) = _
  rw [hexec]
  rfl

/-- A variable that is not there can be declared. -/
theorem exec_declare (type : String) {name : String} {v : Source}
    (hfree : j.get? (.binding name) = none) (heval : v.eval classes j = .ok (w, j')) :
    (Statement.declare type name v).exec classes j = .ok (j'.put (.binding name) w) := by
  simp only [Statement.exec, hfree, heval]
  rfl

end Statements

section Knowing

theorem Settled.mem (h : Realisable classes s m) (hdone : ∀ c ∈ done, c ∈ s.condition.clauses)
    (hx : Settled s m done names x w) : x ∈ s.symbols.symbols := by
  cases hx with
  | ref hclause => exact h.coherent.parts.references _ _ (hdone _ hclause)
  | prim hx _ _ => exact hx

/-- The places of a symbol that has no value yet are free. -/
theorem Realisable.free (h : Realisable classes s m) (hdone : ∀ c ∈ done, c ∈ s.condition.clauses)
    (hx : x ∈ s.symbols.symbols) (hnew : ∀ w, ¬ Settled s m done names x w)
    (hπ : Stores s.condition.clauses x π) : ∀ w, ¬ Known s m done names π w := by
  rintro w ⟨y, hy, hyπ⟩
  obtain rfl := hπ.inj h.toLayout hx (hy.mem h hdone) hyπ
  exact hnew w hy

/-- A variable that is free is not declared. -/
theorem Holds.undeclared {name : String} (h : Holds classes s m held done j)
    (hfree : ∀ w, ¬ held (.binding name) w) : j.get? (.binding name) = none := by
  cases hget : j.get? (.binding name) with
  | none => rfl
  | some w => exact absurd (h.declared name w hget) (hfree w)

/-- A symbol that gets a variable has its value from then on. -/
theorem known_bind (h : Realisable classes s m) {x : PrimSymbol} (hx : .prim x ∈ s.symbols.symbols)
    {v : Const} (hv : m.get? x.number = some v) (name : String) :
    Known s m done ((x.id, name) :: names) π w ↔ Known s m done names π w ∨
      Stores s.condition.clauses (.prim x) π ∧ w = .const (v.convert x.type) := by
  constructor
  · rintro ⟨y, hy, hyπ⟩
    cases hy with
    | ref hclause => exact .inl ⟨_, .ref hclause, hyπ⟩
    | @prim y c hy hbound hvalue =>
        by_cases hid : y.id = x.id
        · obtain rfl := Symbol.prim.inj (h.coherent.parts.table.eq_of_number hy hx (id_inj hid))
          rw [hv] at hvalue
          exact .inr ⟨hyπ, by rw [Option.some.inj hvalue]⟩
        · rw [List.lookup_cons, beq_eq_false_iff_ne.2 hid] at hbound
          exact .inl ⟨_, .prim hy hbound hvalue, hyπ⟩
  · rintro (⟨y, hy, hyπ⟩ | ⟨hxπ, rfl⟩)
    · refine ⟨y, ?_, hyπ⟩
      cases hy with
      | ref hclause => exact .ref hclause
      | prim hy hbound hvalue =>
          refine .prim hy ?_ hvalue
          rw [List.lookup_cons]
          split
          · rfl
          · exact hbound
    · refine ⟨_, .prim hx ?_ hv, hxπ⟩
      rw [List.lookup_cons, beq_self_eq_true]
      rfl

/-- A reference that is resolved has its value from then on. -/
theorem known_resolve {ref : RefSymbol} {how : Resolution}
    (hnames : ∀ x : PrimSymbol, names'.lookup x.id = names.lookup x.id) :
    Known s m (done ++ [.resolve ref how]) names' π w ↔ Known s m done names π w ∨
      Stores s.condition.clauses (.ref ref) π ∧ w = how.javaValue s.condition.clauses := by
  constructor
  · rintro ⟨y, hy, hyπ⟩
    cases hy with
    | ref hclause =>
        rcases List.mem_append.1 hclause with hclause | hclause
        · exact .inl ⟨_, .ref hclause, hyπ⟩
        · obtain ⟨rfl, rfl⟩ := Clause.resolve.inj (List.mem_singleton.1 hclause)
          exact .inr ⟨hyπ, rfl⟩
    | prim hy hbound hvalue =>
        rw [hnames] at hbound
        exact .inl ⟨_, .prim hy hbound hvalue, hyπ⟩
  · rintro (⟨y, hy, hyπ⟩ | ⟨hπ, rfl⟩)
    · refine ⟨y, ?_, hyπ⟩
      cases hy with
      | ref hclause => exact .ref (List.mem_append_left _ hclause)
      | prim hy hbound hvalue =>
          rw [← hnames] at hbound
          exact .prim hy hbound hvalue
    · exact ⟨_, .ref (List.mem_append_right _ List.mem_cons_self), hπ⟩

/-- A clause that resolves nothing settles no symbol. -/
theorem known_other {c : Clause} (hc : ∀ ref how, c ≠ .resolve ref how) :
    Known s m (done ++ [c]) names π w ↔ Known s m done names π w := by
  have hclause : ∀ ref how, Clause.resolve ref how ∈ done ++ [c] ↔
      Clause.resolve ref how ∈ done := by
    intro ref how
    rw [List.mem_append, List.mem_singleton]
    exact or_iff_left (hc ref how).symm
  constructor
  · rintro ⟨y, hy, hyπ⟩
    refine ⟨y, ?_, hyπ⟩
    cases hy with
    | ref hmem => exact .ref ((hclause _ _).1 hmem)
    | prim hy hbound hvalue => exact .prim hy hbound hvalue
  · rintro ⟨y, hy, hyπ⟩
    refine ⟨y, ?_, hyπ⟩
    cases hy with
    | ref hmem => exact .ref ((hclause _ _).2 hmem)
    | prim hy hbound hvalue => exact .prim hy hbound hvalue

end Knowing

section Access

variable {done' : List Clause}

/-- What is in the place of a symbol is read at its origin. -/
theorem Holds.readAt (h : Realisable classes s m) (hj : Holds classes s m held done' j)
    (hknown : ∀ π w, Known s m done names π w → held π w)
    (hdone : ∀ c ∈ done, c ∈ s.condition.clauses) (hdone' : ∀ c ∈ done, c ∈ done')
    (hx : Anchored classes s.frame done x) (hmentioned : Mentioned s x)
    (hπ : Occupies s.condition.clauses x π) (hw : j.get? π = some w) :
    j.readAt x.origin = .ok w :=
  readAt_of_place h (fun ref p type hc => hj.forms ref p type (hdone' _ hc))
    (fun _ _ _ hc hplace => hj.values _ _ (hknown _ _ ⟨_, .ref hc, .own hplace⟩))
    hdone hx hmentioned hπ hw

/-- A value can be stored at the origin of a nested symbol, and is then in the
    place of the symbol. -/
theorem Holds.store (h : Realisable classes s m) (hj : Holds classes s m held done' j)
    (hknown : ∀ π w, Known s m done names π w → held π w)
    (hdone : ∀ c ∈ done, c ∈ s.condition.clauses) (hdone' : ∀ c ∈ done, c ∈ done')
    (hx : Anchored classes s.frame done x) (hmentioned : Mentioned s x)
    (hnested : x.origin.steps ≠ []) (hlast : x.origin.last? ≠ some .length) :
    ∃ π, Occupies s.condition.clauses x π ∧ (j.get? π).isSome ∧
      ∀ w, j.store (rootVariable x.origin.root) (chainOf x.origin) w = .ok (j.put π w) := by
  cases hx with
  | root hv horigin =>
      rw [horigin] at hnested
      exact absurd rfl hnested
  | @slot _ base p type a hbase hclause horigin ha =>
      rcases ha with hoffers | ⟨rfl, -, -⟩
      · have hforms : Forms classes s m done j := fun ref p type hc =>
          hj.forms ref p type (hdone' _ hc)
        obtain ⟨step, π, hstep, hπ, hlocate, hsome⟩ :=
          hforms.locate h hdone hclause horigin hoffers hmentioned
        rcases hbase.addressed hdone with ⟨hwalk, πbase, hplace⟩ | ⟨-, n, hn⟩
        · have hread := hj.readAt h hknown hdone hdone' hbase ⟨_, hdone _ hclause, .resolved _ _⟩
            hplace (hj.values _ _ (hknown _ _ ⟨_, .ref hclause, .own hplace⟩))
          refine ⟨π, hπ, hsome, fun w => ?_⟩
          rw [horigin]
          exact store_push hwalk hread hstep hlocate
        · cases hn
      · refine absurd ?_ hlast
        rw [horigin, Origin.last?_push]

end Access

section Symbols

variable {x : PrimSymbol} {v : Const}

/-- The variable of a symbol is one of its places. -/
theorem stores_variableOf (clauses : List Clause) (x : PrimSymbol) :
    Stores clauses (.prim x) (.binding (variableOf x)) := by
  unfold variableOf
  by_cases hroot : x.origin.isRoot = true
  · rw [if_pos hroot]
    exact .own (.root (List.isEmpty_iff.1 hroot))
  · rw [if_neg hroot]
    exact .computed fun hsteps => hroot (List.isEmpty_iff.2 hsteps)

/-- A root and a length have no place besides their variable. -/
theorem eq_variableOf_of_stores (h : Layout classes s)
    (hx : x.origin.isRoot = true ∨ x.origin.last? = some .length)
    (hπ : Stores s.condition.clauses (.prim x) π) : π = .binding (variableOf x) := by
  unfold variableOf
  cases hπ with
  | computed hnested =>
      have hroot : ¬ x.origin.isRoot = true := fun hroot => hnested (List.isEmpty_iff.1 hroot)
      rw [if_neg hroot]
  | own hπ =>
      rcases hx with hroot | hlast
      · rw [if_pos hroot]
        exact hπ.unique h (.root (List.isEmpty_iff.1 hroot))
      · -- The last step of a place is a field or an element.
        have hpush : ∀ (o : Origin) a, x.origin = o.push a → a = .length := by
          intro o a horigin
          rw [horigin, Origin.last?_push] at hlast
          exact Option.some.inj hlast
        cases hπ with
        | root hroot =>
            rw [Origin.last?, show x.origin.steps = [] from hroot] at hlast
            cases hlast
        | field _ horigin => cases hpush _ _ horigin
        | element _ horigin _ => cases hpush _ _ horigin

theorem stores_iff_variableOf (h : Layout classes s)
    (hx : x.origin.isRoot = true ∨ x.origin.last? = some .length) :
    Stores s.condition.clauses (.prim x) π ↔ π = .binding (variableOf x) :=
  ⟨eq_variableOf_of_stores h hx, fun heq => heq ▸ stores_variableOf _ x⟩

/-- Any other symbol has a place of its own and its variable. -/
theorem stores_iff_of_nested (h : Layout classes s) (hroot : ¬ x.origin.isRoot = true) {ρ : Place}
    (hρ : Occupies s.condition.clauses (.prim x) ρ) :
    Stores s.condition.clauses (.prim x) π ↔ π = .binding (variableOf x) ∨ π = ρ := by
  constructor
  · intro hπ
    cases hπ with
    | own hπ => exact .inr (hπ.unique h hρ)
    | computed hnested => exact .inl (by rw [variableOf, if_neg hroot])
  · rintro (rfl | rfl)
    · exact stores_variableOf _ x
    · exact .own hρ

theorem declarePrimitive_run (x : PrimSymbol) (v : Const) :
    (declarePrimitive ctx x v).run st =
      (if x.origin.isRoot then declareRoot x.origin.root
        else if x.origin.last? != some .length then assign ctx x.origin (.var (variableOf x))
        else pure ()).run
      ⟨st.statements ++ [.declare x.type.descriptor (variableOf x) (.literal x.type v)],
        (x.id, variableOf x) :: st.bindings, st.roots⟩ :=
  rfl

/-- What was brought about stays, when one more symbol gets a variable. -/
theorem Realises.bind (h : Realisable classes s m) (hR : Realises classes s m done st j)
    (hx : .prim x ∈ s.symbols.symbols) {st' : Setup}
    (hbindings : st'.bindings = (x.id, variableOf x) :: st.bindings)
    (hroots : ∀ root ∈ st.roots, root ∈ st'.roots)
    (hrun : runStatements classes st'.statements {} = .ok j')
    (hsize : j'.heap.length = j.heap.length)
    (hholds : Holds classes s m (Known s m done st'.bindings) done j') :
    Realises classes s m done st' j' where
  run := hrun
  size := hsize.trans hR.size
  holds := hholds
  roots := fun ref how hc hroot => hroots _ (hR.roots ref how hc hroot)
  names := fun y name hy hname => by
    rw [nameOf?, hbindings, List.lookup_cons] at hname
    by_cases hid : y.id = x.id
    · obtain rfl := Symbol.prim.inj (h.coherent.parts.table.eq_of_number hy hx (id_inj hid))
      rw [beq_self_eq_true] at hname
      exact (Option.some.inj hname).symm
    · rw [beq_eq_false_iff_ne.2 hid] at hname
      exact hR.names y name hy hname
  bound := fun c y hc hy => by
    rw [nameOf?, hbindings, List.lookup_cons]
    split
    · rfl
    · exact hR.bound c y hc hy

/-- A symbol that has no variable gets one, and its value where it is. -/
theorem declarePrimitive_realises (ctx : Context) (h : Realisable classes s m)
    (hdone : ∀ c ∈ done, c ∈ s.condition.clauses) (hR : Realises classes s m done st j)
    (hx : .prim x ∈ s.symbols.symbols) (hmentioned : Mentioned s (.prim x))
    (hv : m.get? x.number = some v)
    (ha : Anchored classes s.frame done (.prim x) ∨ x.origin.last? = some .length)
    (hunbound : st.nameOf? x.id = none) :
    ∃ st' j', (declarePrimitive ctx x v).run st = .ok ((), st') ∧
      Realises classes s m done st' j' ∧ st'.bindings = (x.id, variableOf x) :: st.bindings := by
  have hnew : ∀ w, ¬ Settled s m done st.bindings (.prim x) w := by
    intro w hw
    cases hw with
    | prim _ hbound _ =>
        rw [nameOf?] at hunbound
        rw [hunbound] at hbound
        cases hbound
  have hfree := h.free hdone hx hnew (stores_variableOf _ x)
  -- The variable is declared in any case.
  have hvariable := hR.holds.put (w := .const (v.convert x.type)) hfree (.inr ⟨_, rfl⟩)
  have hrun := runStatements_snoc hR.run (exec_declare x.type.descriptor
    (v := .literal x.type v) (hR.holds.undeclared hfree) rfl)
  rw [declarePrimitive_run]
  by_cases hroot : x.origin.isRoot = true
  · rw [if_pos hroot]
    refine ⟨_, _, rfl, hR.bind h hx rfl (fun root hmem => List.mem_cons_of_mem _ hmem) hrun
      (length_heap_put _ _ _) (hvariable.congr fun π w => ?_), rfl⟩
    rw [known_bind h hx hv, stores_iff_variableOf h.toLayout (.inl hroot)]
  · rw [if_neg hroot]
    by_cases hlast : x.origin.last? = some .length
    · rw [hlast]
      refine ⟨_, _, rfl, hR.bind h hx rfl (fun root hmem => hmem) hrun (length_heap_put _ _ _)
        (hvariable.congr fun π w => ?_), rfl⟩
      rw [known_bind h hx hv, stores_iff_variableOf h.toLayout (.inr hlast)]
    · -- The value is also stored where the symbol is, through the variable of its root.
      have hanchored := ha.resolve_right hlast
      have hnested : x.origin.steps ≠ [] := fun hsteps => hroot (List.isEmpty_iff.2 hsteps)
      have hmem := hanchored.root_mem hR.roots hnested
      obtain ⟨π, hπ, hsome, hstore⟩ := hvariable.store h (fun _ _ hknown => .inl hknown) hdone
        (fun _ hc => hc) hanchored hmentioned hnested hlast
      have hwalk : x.origin.Walkable := by
        rcases hanchored.addressed hdone with ⟨hwalk, -⟩ | ⟨hlength, -⟩
        · exact hwalk
        · exact absurd hlength hlast
      obtain ⟨statement, hassign, hexec⟩ := assign_run ctx classes ⟨st.statements ++
        [.declare x.type.descriptor (variableOf x) (.literal x.type v)],
        (x.id, variableOf x) :: st.bindings, st.roots⟩ hmem hwalk (.var (variableOf x))
      have hne : π ≠ .binding (variableOf x) := by
        rw [variableOf, if_neg hroot]
        exact hπ.ne_computed x
      have hboth := hvariable.put (w := .const (v.convert x.type))
        (fun w' hheld => hheld.elim (h.free hdone hx hnew (.own hπ) w') fun heq => hne heq.1)
        (.inl hsome)
      have heval : (Source.var (variableOf x)).eval classes
          (j.put (.binding (variableOf x)) (.const (v.convert x.type)))
          = .ok (.const (v.convert x.type),
            j.put (.binding (variableOf x)) (.const (v.convert x.type))) := by
        simp only [Source.eval, JavaState.variableValue, get?_put_binding]
        rfl
      rw [if_pos (bne_iff_ne.2 hlast)]
      refine ⟨_, _, hassign, hR.bind h hx rfl (fun root hroot => hroot)
        (runStatements_snoc hrun ((hexec _ _ _ heval).trans (hstore _)))
        ((length_heap_put _ _ _).trans (length_heap_put _ _ _)) (hboth.congr fun π' w => ?_), rfl⟩
      rw [known_bind h hx hv, stores_iff_of_nested h.toLayout hroot hπ, or_and_right, or_assoc]

/-- A symbol with a value in the model has a variable afterwards. -/
theorem bindSymbol_realises (h : Realisable classes s m) (hctx : Describes ctx s m)
    (hdone : ∀ c ∈ done, c ∈ s.condition.clauses) (hR : Realises classes s m done st j)
    (hx : .prim x ∈ s.symbols.symbols) (hmentioned : Mentioned s (.prim x))
    (hv : m.get? x.number = some v)
    (ha : Anchored classes s.frame done (.prim x) ∨ x.origin.last? = some .length) :
    ∃ st' j', (bindSymbol ctx x).run st = .ok ((), st') ∧ Realises classes s m done st' j' ∧
      (st'.nameOf? x.id).isSome ∧ ∀ id, (st.nameOf? id).isSome → (st'.nameOf? id).isSome := by
  unfold bindSymbol
  rw [run_get_bind, hctx.model, hv]
  cases hbound : st.nameOf? x.id with
  | some name => exact ⟨st, j, rfl, hR, by rw [hbound]; rfl, fun _ hid => hid⟩
  | none =>
      obtain ⟨st', j', hrun, hR', hbindings⟩ :=
        declarePrimitive_realises ctx h hdone hR hx hmentioned hv ha hbound
      refine ⟨st', j', hrun, hR', ?_, fun id hid => ?_⟩
      · rw [nameOf?, hbindings, List.lookup_cons, beq_self_eq_true]
        rfl
      · rw [nameOf?, hbindings, List.lookup_cons]
        split
        · rfl
        · exact hid

/-- The same for all symbols of a list. -/
theorem bindSymbols_realises (h : Realisable classes s m) (hctx : Describes ctx s m)
    (hdone : ∀ c ∈ done, c ∈ s.condition.clauses) (xs : List PrimSymbol)
    (hxs : ∀ x ∈ xs, .prim x ∈ s.symbols.symbols ∧ Mentioned s (.prim x) ∧
      (∃ v, m.get? x.number = some v) ∧ Anchored classes s.frame done (.prim x))
    (hR : Realises classes s m done st j) :
    ∃ st' j', (xs.forM (bindSymbol ctx)).run st = .ok ((), st') ∧
      Realises classes s m done st' j' ∧ (∀ x ∈ xs, (st'.nameOf? x.id).isSome) ∧
      ∀ id, (st.nameOf? id).isSome → (st'.nameOf? id).isSome := by
  induction xs generalizing st j with
  | nil => exact ⟨st, j, rfl, hR, fun x hx => absurd hx List.not_mem_nil, fun _ hid => hid⟩
  | cons x xs ih =>
      obtain ⟨hx, hmentioned, ⟨v, hv⟩, ha⟩ := hxs x List.mem_cons_self
      obtain ⟨st₁, j₁, hrun₁, hR₁, hbound₁, hkept₁⟩ :=
        bindSymbol_realises h hctx hdone hR hx hmentioned hv (.inl ha)
      obtain ⟨st₂, j₂, hrun₂, hR₂, hbound₂, hkept₂⟩ :=
        ih (fun y hy => hxs y (List.mem_cons_of_mem x hy)) hR₁
      refine ⟨st₂, j₂, ?_, hR₂, fun y hy => ?_, fun id hid => hkept₂ id (hkept₁ id hid)⟩
      · rw [List.forM, StateT.run_bind, hrun₁]
        exact hrun₂
      · rcases List.mem_cons.1 hy with rfl | hy
        · exact hkept₂ _ hbound₁
        · exact hbound₂ y hy

end Symbols

section References

variable {ref : RefSymbol} {how : Resolution} {v : Source}

/-- No clause before the one that resolves a reference resolves it. -/
theorem unresolved_before (h : s.Coherent classes)
    (hclauses : s.condition.clauses = done ++ .resolve ref how :: rest) (how' : Resolution) :
    .resolve ref how' ∉ done := by
  intro hmem
  have hnodup := h.parts.condition.resolved.nodup
  rw [hclauses, List.filterMap_append, List.nodup_append] at hnodup
  exact hnodup.2.2 ref.number (List.mem_filterMap.2 ⟨_, hmem, rfl⟩) ref.number
    (List.mem_filterMap.2 ⟨_, List.mem_cons_self, rfl⟩) rfl

/-- The object of an alias was created by a clause before the alias. -/
theorem expanded_before (h : s.Coherent classes) {p : Int}
    (hclauses : s.condition.clauses = done ++ .resolve ref (.aliasOf p) :: rest) :
    ∃ target type, .resolve target (.fresh p type) ∈ done := by
  have hat : s.condition.clauses[done.length]? = some (.resolve ref (.aliasOf p)) := by
    rw [hclauses, List.getElem?_append_right (Nat.le_refl _), Nat.sub_self]
    rfl
  obtain ⟨i, hi, target, type, hget⟩ := h.parts.condition.aliases _ _ _ hat
  rw [hclauses, List.getElem?_append_left hi] at hget
  exact ⟨target, type, List.mem_of_getElem? hget⟩

/-- A reference has one place. -/
theorem stores_ref_iff (h : Layout classes s) {ρ : Place}
    (hρ : Occupies s.condition.clauses (.ref ref) ρ) :
    Stores s.condition.clauses (.ref ref) π ↔ π = ρ := by
  refine ⟨fun hπ => ?_, fun heq => heq ▸ .own hρ⟩
  cases hπ with
  | own hπ => exact hπ.unique h hρ

/-- What was brought about, together with one more reference. -/
theorem Realises.resolve (hR : Realises classes s m done st j) {st' : Setup}
    (hroots : ∀ root ∈ st.roots, root ∈ st'.roots)
    (hroot : ref.origin.steps = [] → ref.origin.root ∈ st'.roots)
    (hnames : ∀ x : PrimSymbol, st'.nameOf? x.id = st.nameOf? x.id)
    (hrun : runStatements classes st'.statements {} = .ok j')
    (hsize : j'.heap.length = (expandedPositions (done ++ [.resolve ref how])).length)
    (hholds : Holds classes s m (Known s m (done ++ [.resolve ref how]) st'.bindings)
      (done ++ [.resolve ref how]) j') :
    Realises classes s m (done ++ [.resolve ref how]) st' j' where
  run := hrun
  size := hsize
  holds := hholds
  roots := fun ref' how' hc hsteps => by
    rcases List.mem_append.1 hc with hc | hc
    · exact hroots _ (hR.roots ref' how' hc hsteps)
    · obtain ⟨rfl, -⟩ := Clause.resolve.inj (List.mem_singleton.1 hc)
      exact hroot hsteps
  names := fun x name hx hname => hR.names x name hx ((hnames x).symm.trans hname)
  bound := fun c x hc hx => by
    rcases List.mem_append.1 hc with hc | hc
    · rw [hnames]
      exact hR.bound c x hc hx
    · cases List.mem_singleton.1 hc

/-- A reference gets its value where it is: the value of an expression, in the
    state that computing it has left. -/
theorem setReference_realises (ctx : Context) (h : Realisable classes s m)
    (hclauses : s.condition.clauses = done ++ .resolve ref how :: rest)
    (hR : Realises classes s m done st j)
    (heval : v.eval classes j = .ok (how.javaValue s.condition.clauses, j'))
    (hsize : j'.heap.length = (expandedPositions (done ++ [.resolve ref how])).length)
    (hholds : Holds classes s m (Known s m done st.bindings) (done ++ [.resolve ref how]) j') :
    ∃ st' j'', (setReference ctx ref v).run st = .ok ((), st') ∧
      Realises classes s m (done ++ [.resolve ref how]) st' j'' ∧
      ∀ x : PrimSymbol, st'.nameOf? x.id = st.nameOf? x.id := by
  have hdone : ∀ c ∈ done, c ∈ s.condition.clauses := subset_of_split hclauses
  obtain ⟨hx, hanchored⟩ := h.grounded.clauses done _ rest hclauses _ (.resolved ref how)
  have hnew : ∀ w, ¬ Settled s m done st.bindings (.ref ref) w := by
    intro w hw
    cases hw with
    | ref hclause => exact unresolved_before h.coherent hclauses _ hclause
  unfold setReference
  by_cases hroot : ref.origin.isRoot = true
  · have hsteps := List.isEmpty_iff.1 hroot
    have hplace :
        Occupies s.condition.clauses (.ref ref) (.binding (rootVariable ref.origin.root)) :=
      .root hsteps
    have hfree := h.free hdone hx hnew (.own hplace)
    have hnames : ∀ x : PrimSymbol,
        ((ref.id, rootVariable ref.origin.root) :: st.bindings).lookup x.id
          = st.bindings.lookup x.id := by
      intro x
      rw [List.lookup_cons, beq_eq_false_iff_ne.2 (id_ne_refId x ref)]
    rw [if_pos hroot]
    refine ⟨_, _, rfl, hR.resolve (fun root hmem => List.mem_cons_of_mem _ hmem)
      (fun _ => List.mem_cons_self) hnames
      (runStatements_snoc hR.run (exec_declare ref.type (hR.holds.undeclared hfree) heval))
      ((length_heap_put _ _ _).trans hsize)
      ((hholds.put hfree (.inr ⟨_, rfl⟩)).congr fun π w => ?_), hnames⟩
    rw [known_resolve hnames, stores_ref_iff h.toLayout hplace]
  · have hnested : ref.origin.steps ≠ [] := fun hsteps => hroot (List.isEmpty_iff.2 hsteps)
    have haddressed : ref.origin.Walkable ∧ ref.origin.last? ≠ some .length := by
      rcases hanchored.addressed hdone with ⟨hwalk, -⟩ | ⟨-, n, hn⟩
      · refine ⟨hwalk, fun hlast => ?_⟩
        have hlength := hwalk _ (List.mem_of_getLast? hlast)
        cases hlength
      · cases hn
    obtain ⟨π, hπ, hsome, hstore⟩ := hholds.store h (fun _ _ hknown => hknown) hdone
      (fun _ hc => List.mem_append_left _ hc) hanchored
      (mentioned_of_split hclauses (.resolved ref how)) hnested haddressed.2
    obtain ⟨statement, hassign, hexec⟩ := assign_run ctx classes st
      (hanchored.root_mem hR.roots hnested) haddressed.1 v
    rw [if_neg hroot]
    refine ⟨_, _, hassign, hR.resolve (fun root hmem => hmem) (fun hsteps => absurd hsteps hnested)
      (fun _ => rfl) (runStatements_snoc hR.run ((hexec _ _ _ heval).trans (hstore _)))
      ((length_heap_put _ _ _).trans hsize)
      ((hholds.put (h.free hdone hx hnew (.own hπ)) (.inl hsome)).congr fun π' w => ?_),
      fun _ => rfl⟩
    rw [known_resolve fun _ => rfl, stores_ref_iff h.toLayout hπ]

/-- The positions that are expanded, with one more clause. -/
theorem length_expandedPositions_snoc {c : Clause} :
    (expandedPositions (done ++ [c])).length
      = (expandedPositions done).length + (c.expandedPosition?.toList).length := by
  rw [expandedPositions, List.filterMap_append, List.length_append, expandedPositions]
  cases hc : c.expandedPosition? with
  | none => rw [List.filterMap_cons_none hc]; rfl
  | some p => rw [List.filterMap_cons_some hc]; rfl

/-- A reference that is resolved without a new object gets a value that is
    there. -/
theorem setReference_old (ctx : Context) (h : Realisable classes s m)
    (hclauses : s.condition.clauses = done ++ .resolve ref how :: rest)
    (hold : ∀ p type, how ≠ .fresh p type) (hR : Realises classes s m done st j)
    (heval : v.eval classes j = .ok (how.javaValue s.condition.clauses, j)) :
    ∃ st' j', (setReference ctx ref v).run st = .ok ((), st') ∧
      Realises classes s m (done ++ [.resolve ref how]) st' j' := by
  have hsize : j.heap.length = (expandedPositions (done ++ [.resolve ref how])).length := by
    rw [length_expandedPositions_snoc, hR.size]
    cases how with
    | fresh p type => exact absurd rfl (hold p type)
    | null => rfl
    | aliasOf p => rfl
  obtain ⟨st', j', hrun, hR', -⟩ := setReference_realises ctx h hclauses hR heval hsize
    (hR.holds.snoc fun ref' p type hc => absurd (Clause.resolve.inj hc).2 (hold p type))
  exact ⟨st', j', hrun, hR'⟩

/-- A reference that is expanded gets a new object of the right form. -/
theorem setReference_new (ctx : Context) (h : Realisable classes s m) {p : Int} {type : String}
    (hclauses : s.condition.clauses = done ++ .resolve ref (.fresh p type) :: rest)
    (hR : Realises classes s m done st j) {o : JavaObject}
    (hformed : Formed classes s m ref type o.form)
    (heval : v.eval classes j = .ok (.object j.heap.length, j.allocate o)) :
    ∃ st' j', (setReference ctx ref v).run st = .ok ((), st') ∧
      Realises classes s m (done ++ [.resolve ref (.fresh p type)]) st' j' ∧
      ∀ x : PrimSymbol, st'.nameOf? x.id = st.nameOf? x.id := by
  have haddress : addressOf s.condition.clauses p = j.heap.length :=
    (addressOf_eq_length h.coherent.parts.condition hclauses).trans hR.size.symm
  refine setReference_realises ctx h hclauses hR (heval.trans ?_) ?_
    ((hR.holds.allocate o).snoc fun ref' p' type' hc => ?_)
  · rw [Resolution.javaValue, haddress]
  · rw [length_expandedPositions_snoc, ← hR.size, JavaState.allocate, List.length_append]
    rfl
  · obtain ⟨rfl, hhow⟩ := Clause.resolve.inj hc
    obtain ⟨rfl, rfl⟩ := Resolution.fresh.inj hhow
    refine ⟨_, hformed, ?_⟩
    rw [haddress]
    exact formAt_allocate_self j o

/-- A reference that is expanded to a class gets a new object. -/
theorem newObject_realises (ctx : Context) (h : Realisable classes s m) {p : Int} {type : String}
    (hclauses : s.condition.clauses = done ++ .resolve ref (.fresh p type) :: rest)
    (harray : Descriptor.isArray type = false) (hR : Realises classes s m done st j) :
    ∃ st' j', (setReference ctx ref (.newObject type)).run st = .ok ((), st') ∧
      Realises classes s m (done ++ [.resolve ref (.fresh p type)]) st' j' := by
  have hform : (JavaObject.new classes type).form
      = .ofClass type ((classes.fields type).map (·.name)) := by
    rw [JavaObject.new, JavaObject.form, List.map_map]
    rfl
  obtain ⟨st', j', hrun, hR', -⟩ := setReference_new ctx h hclauses hR (v := .newObject type)
    (o := .new classes type) (by rw [hform]; exact .object harray) rfl
  exact ⟨st', j', hrun, hR'⟩

/-- An alias gets the object that another reference was expanded to, which is read
    where that reference is. -/
theorem makeAlias_realises (h : Realisable classes s m) (hctx : Describes ctx s m) {p : Int}
    (hclauses : s.condition.clauses = done ++ .resolve ref (.aliasOf p) :: rest)
    (hR : Realises classes s m done st j) :
    ∃ st' j', (makeAlias ctx ref p).run st = .ok ((), st') ∧
      Realises classes s m (done ++ [.resolve ref (.aliasOf p)]) st' j' := by
  have hdone : ∀ c ∈ done, c ∈ s.condition.clauses := subset_of_split hclauses
  obtain ⟨target, type, hclause⟩ := expanded_before h.coherent hclauses
  have hanchored : Anchored classes s.frame done (.ref target) :=
    h.grounded.clauses.anchored hclauses hclause (.resolved target _)
  have hroot : target.origin.root ∈ st.roots := by
    by_cases hsteps : target.origin.steps = []
    · exact hR.roots _ _ hclause hsteps
    · exact hanchored.root_mem hR.roots hsteps
  rcases hanchored.addressed hdone with ⟨hwalk, π, hπ⟩ | ⟨-, n, hn⟩
  · have hread := hR.holds.readAt h (fun _ _ hknown => hknown) hdone (fun _ hc => hc) hanchored
      ⟨_, hdone _ hclause, .resolved target _⟩ hπ
      (hR.holds.values _ _ ⟨_, .ref hclause, .own hπ⟩)
    obtain ⟨v, hrun, heval⟩ := readOrigin_run ctx classes hroot hwalk ref.type
    unfold makeAlias
    rw [hctx.condition, h.coherent.parts.condition.expansion?_eq (hdone _ hclause)]
    simp only [StateT.run_bind, hrun]
    refine setReference_old ctx h hclauses (fun _ _ hhow => by cases hhow) hR ?_
    -- A cast does not change a value.
    have hvalue := heval j _ hread
    split
    · exact hvalue
    · split
      · exact hvalue
      · exact hvalue
  · cases hn

end References

end TestCase

end PathWitness
