import PathWitness.Proofs.PathState.Lookup

/-!
# How Resolving a Reference Ends

A reference is resolved in several writes: an object is allocated, a clause is
added, symbols are created and written to slots, rules fire. Any of the writes
but the first can fail. Seen from outside there are four ways in which all this
ends. The reference is resolved already; it cannot be resolved this way, and
nothing has changed; it is resolved, but a field of the new object cannot have a
symbol; or it is resolved, and the rules that wait for it fire.

A new object and the clause that names it come together. The clause cannot be
refused: the reference is not resolved, and the position behind all others is
free.

## Main definitions

* `Event.firing?`, `Event.toldLine?`: The rule that an event is about, and the line that it tells.
* `Resolution.kind`: What rules can wait for.
* `Candidate.Yields`: What a reference is resolved to in a certain way.
* `ResolveError.isEarly`: The error is found before anything is changed.
* `Settles`: A reference is resolved, before any rules fire.
* `Fills`: The fields of a new object are given symbols.
* `Outcome`: The four ways in which resolving ends.

## Theorems

* `expandArray_cases`, `expandObject_cases`: Expansion to a new object.
* `addFields_changes`: The fields of a new object.
* `resolve_outcome`: Resolving ends in one of the four ways.
-/

namespace PathWitness

/-- The rule that has fired, and its target. -/
def Event.firing? : Event → Option (Rule × Target)
  | fired rule target => some (rule, target)
  | _ => none

/-- The line that an event tells. -/
def Event.toldLine? : Event → Option String
  | told line => some line
  | _ => none

/-- The kind of rules that wait for a resolution. -/
def Resolution.kind : Resolution → TriggerKind
  | null => .nulls
  | fresh _ _ => .expands
  | aliasOf _ => .aliases

/-- What a reference is resolved to in a certain way. -/
def Candidate.Yields (ref : RefSymbol) (how : Resolution) : Candidate → Prop
  | null => how = .null
  | aliasOf p => how = .aliasOf p
  | expand className => ∃ p, how =
      .fresh p (if className = "" then Environment.staticClass ref else className)
  | unknown _ => False

/-- A reference is resolved, before any rules fire. -/
structure Settles (classes : ClassTable) (s : PathState) (ref : RefSymbol) (c : Candidate)
    (how : Resolution) (s' : PathState) : Prop where
  unresolved : s.condition.resolution? ref.number = none
  yields : c.Yields ref how
  changes : ∀ may, Changes classes may s s'
  /-- The clause that resolves the reference is the first new one. -/
  clauses : ∃ rest, s'.condition.clauses = s.condition.clauses ++ .resolve ref how :: rest

variable {classes : ClassTable} {τ : Type} {u : Session} {ref : RefSymbol}

theorem Settles.clause {s s' : PathState} {c : Candidate} {how : Resolution}
    (h : Settles classes s ref c how s') : .resolve ref how ∈ s'.condition.clauses := by
  rcases h.clauses with ⟨rest, hrest⟩
  rw [hrest]
  exact List.mem_append_right _ List.mem_cons_self

/-- The error is found before anything is changed. -/
def ResolveError.isEarly : ResolveError τ → Bool
  | field _ _ _ => false
  | fire _ => false
  | _ => true

/-- The fields of an object are given symbols, one after the other, up to the first that
    cannot have one. -/
structure Fills (origin : Origin) (className : String) (fields : List FieldDecl)
    (t : SymbolTable) (r : Except (ResolveError τ) Unit) (t' : SymbolTable) : Prop where
  /-- New symbols belong to fields. -/
  new : ∀ x ∈ t'.symbols, x ∈ t.symbols ∨
    ∃ f ∈ fields, x.origin = origin.push (.field f.name) ∧ x.suits f.type = true
  /-- A field that cannot have a symbol cannot have one in the end either. -/
  failed : ∀ e, r = .error e → ∃ f ∈ fields, ∃ error, e = .field f.name className error ∧
    PathState.symbolOf t' f.type (origin.push (.field f.name)) = .error error

/-- A reference that is found to be resolved is the one that its clause is about:
    within a path a number belongs to one symbol. -/
theorem Coherence.clause_of_resolution? {frame : List Variable} {pc : PathCondition} {heap : Heap}
    {t : SymbolTable} (h : Coherence classes frame pc heap t) (href : .ref ref ∈ t.symbols)
    {r : RefSymbol} {how : Resolution} (hsome : pc.resolution? ref.number = some (r, how)) :
    .resolve ref how ∈ pc.clauses := by
  obtain ⟨hmem, hr⟩ := h.condition.mem_of_resolution? hsome
  have heq := h.table.eq_of_number (h.references r _ hmem) href hr
  rw [← Symbol.ref.inj heq]
  exact hmem

namespace Environment

/-- The ways in which resolving a reference ends. -/
inductive Outcome (env : Environment τ) (ref : RefSymbol) (c : Candidate) (u : Session) :
    Except (ResolveError τ) Target × Session → Prop where
  /-- The reference is resolved already. -/
  | known {how : Resolution} (hclause : .resolve ref how ∈ u.state.condition.clauses) :
    Outcome env ref c u (.ok how.target, u)
  /-- The reference cannot be resolved this way. -/
  | refused (e : ResolveError τ) (hearly : e.isEarly = true) : Outcome env ref c u (.error e, u)
  /-- The new object cannot have all of its fields. -/
  | broken {how : Resolution} {s : PathState} (e : ResolveError τ)
    (hsettles : Settles env.classes u.state ref c how s)
    (hfills : ∃ p type, how = .fresh p type ∧ Fills ref.origin type (env.classes.fields type)
      u.state.symbols (.error e : Except (ResolveError τ) Unit) s.symbols) :
    Outcome env ref c u (.error e, ⟨s, u.journal⟩)
  /-- The reference is resolved, and rules fire. Only an expansion has to tell
      them the class. -/
  | announced {how : Resolution} {s : PathState} {e : Event} {className : String}
    (hsettles : Settles env.classes u.state ref c how s) (hquiet : e.firing? = none)
    (hclass : ∀ p type, how = .fresh p type → className = type)
    (hsilent : e.toldLine? = none) :
    Outcome env ref c u (andThen
      ((env.fireFor ref className how.kind how.target).runOn ⟨s, e :: u.journal⟩)
      fun _ v => (.ok how.target, v))

/-- The position behind all others is free. -/
theorem expandingClause?_next {s : PathState} (h : s.Coherent classes) :
    s.condition.expandingClause? (s.heap.size + 1) = none := by
  refine h.parts.condition.expandingClause?_none fun ref type hc => ?_
  rcases h.parts.clauses ref _ hc with ⟨o, ho, _⟩
  have hpos := Heap.pos_of_get? ho
  omega

theorem mkBinary_length {n : PrimSymbol} (hn : n.type = .int) :
    Term.mkBinary (.binary (.comparison .ge)) (some (.symbol n)) (some (.const (.int 0)))
      = .ok (lengthCondition n) := by
  simp only [Term.mkBinary, Term.type, hn]
  rfl

/-- A new array and the clause that names it, or nothing if its length cannot have a
    symbol. -/
theorem expandArray_cases {type : String} (h : u.state.Coherent classes)
    (href : .ref ref ∈ u.state.symbols.symbols)
    (hsub : classes.isSubclass type (staticClass ref) = true)
    (hnone : u.state.condition.resolution? ref.number = none)
    (htype : Descriptor.isArray type = true) :
    (∃ e, (expandArray ref type : TraceM (ResolveError τ) Int).runOn u = (.error (.length e), u)) ∨
      ∃ s c, (expandArray ref type : TraceM (ResolveError τ) Int).runOn u
          = (.ok (u.state.heap.size + 1), ⟨s, u.journal⟩) ∧
        (∀ may, Change classes may u.state s) ∧ s.condition.clauses =
          u.state.condition.clauses ++ [.resolve ref (.fresh (u.state.heap.size + 1) type), c] := by
  unfold expandArray
  simp only [TraceM.runOn_bind, TraceM.runOn_state, andThen_ok, TraceM.runOn_ofExcept]
  cases hlength : u.state.symbols.primitive Prim.int.descriptor (ref.origin.push .length) with
  | error e => exact .inl ⟨e, rfl⟩
  | ok r =>
      rcases r with ⟨n, t⟩
      rcases SymbolTable.primitive_supplies hlength with ⟨hsupplies, hprim⟩
      have hint : n.type = .int := by
        rw [Prim.ofDescriptor?_descriptor] at hprim
        exact (Option.some.inj hprim).symm
      -- None of the steps after the symbol of the length can fail.
      have hallocate : u.state.heap.allocateArray type ref.origin (some (.symbol n))
          = .ok (u.state.heap.allocate ⟨type, ref.origin, some (.symbol n), []⟩) := by
        simp only [Heap.allocateArray, htype, Heap.isLength, Term.type, hint]
        rfl
      have hnew := h.parts.condition.resolvingClause?_none hnone
      rcases PathCondition.assumeExpandsArray_grown u.state.condition htype
        (c := lengthCondition n) rfl rfl hnew (expandingClause?_next h) with ⟨pc', hrun, hgrown⟩
      simp only [Except.mapError, andThen_ok, TraceM.runOn_setState, mkBinary_length hint,
        hallocate, TraceM.runOn_onCondition, Heap.allocate, hrun, TraceM.runOn_pure]
      exact .inr ⟨_, _, rfl, fun may => .array href htype hsub hsupplies hint hgrown,
        hgrown.extends.1⟩

/-- A slot of an object that is not an array is named by a field alone. -/
theorem eq_field_of_names {o : HeapObject} (harray : o.isArray = false) {a : Accessor}
    {key : String} (h : o.Names a key) : a = .field key := by
  cases a with
  | field name => rw [Option.some.inj h.1]
  | index i => exact absurd (h.2 i rfl) (by rw [harray]; exact Bool.false_ne_true)
  | length => exact absurd h.1 (by simp only [Accessor.slot?, reduceCtorEq, not_false_eq_true])

/-- Fields of an object that is there. The object stays what it is, so the rest
    of the fields can be added to it, and this may stop after any field. -/
theorem addFields_changes {p : Int} {o : HeapObject} (h : u.state.Coherent classes)
    (hobject : u.state.heap.get? p = some o) (hnamed : o.origin.isEmpty = false)
    (harray : o.isArray = false) (className : String) (fields : List FieldDecl)
    (hfields : ∀ f ∈ fields, f ∈ classes.fields o.type) :
    ∃ r s, (addFields o.origin className p fields : TraceM (ResolveError τ) Unit).runOn u
        = (r, ⟨s, u.journal⟩) ∧ (∀ may, Changes classes may u.state s) ∧
      s.condition = u.state.condition ∧
      Fills o.origin className fields u.state.symbols r s.symbols := by
  induction fields generalizing u o with
  | nil =>
      exact ⟨_, _, rfl, fun may => .refl u.state, rfl, fun x hx => .inl hx, fun e he => by cases he⟩
  | cons f rest ih =>
      unfold addFields
      simp only [TraceM.runOn_bind, TraceM.runOn_state, andThen_ok, TraceM.runOn_ofExcept]
      cases hsymbol : PathState.symbolOf u.state.symbols f.type (o.origin.push (.field f.name)) with
      | error e =>
          refine ⟨_, _, rfl, fun may => .refl u.state, rfl, fun x hx => .inl hx, fun e' he' => ?_⟩
          exact ⟨f, List.mem_cons_self, e, (Except.error.inj he').symm, hsymbol⟩
      | ok r =>
          rcases r with ⟨x, t⟩
          have hsupplies := SymbolTable.symbolOf_supplies hsymbol
          obtain ⟨o', hset, horigin', htype'⟩ : ∃ o', o.set (.field f.name) (some (.ofSymbol x))
              = .ok o' ∧ o'.origin = o.origin ∧ o'.type = o.type := ⟨_, rfl, rfl, rfl⟩
          -- A slot that is written twice holds the symbol at its origin already.
          have hkept : ∀ key w, o.Names (.field f.name) key → o.slot? key = some w →
              w = some (.ofSymbol x) := by
            intro key w hkey hslot
            rcases (h.parts.contents p o hobject).slots key w hslot with ⟨y, a, rfl, ha, hfind⟩
            rw [eq_field_of_names harray ha, ← Option.some.inj hkey.1] at hfind
            have hy := SymbolTable.find?_mono hsupplies.grows hfind
            rw [hsupplies.find?] at hy
            rw [Option.some.inj hy]
          have hchange : ∀ may, Change classes may u.state
              { u.state with symbols := t, heap := u.state.heap.replace p o' } := fun may =>
            .written hobject hnamed (.field harray (hfields f List.mem_cons_self)) hsupplies hset
              hkept (fun i hi => by cases hi)
          simp only [Except.mapError, andThen_ok, Heap.write_eq hobject hset, TraceM.runOn_setState]
          have hreplaced : (u.state.heap.replace p o').get? p = some o' := by
            rw [Heap.get?_replace hobject, if_pos rfl]
          have hisArray : o'.isArray = false := by rw [HeapObject.isArray, htype']; exact harray
          rw [← horigin']
          rcases ih (u := ⟨{ u.state with symbols := t, heap := u.state.heap.replace p o' },
            u.journal⟩) ((hchange fun _ _ => True).kept h).1 hreplaced
            (by rw [horigin']; exact hnamed) hisArray
            (fun g hg => by rw [htype']; exact hfields g (List.mem_cons_of_mem f hg))
            with ⟨r, s, hrun, hchanges, hcondition, hnew, hfailed⟩
          refine ⟨r, s, hrun, fun may => (Changes.single (hchange may)).trans (hchanges may),
            hcondition, fun y hy => ?_, fun e he => ?_⟩
          · rcases hnew y hy with hy | ⟨g, hg, hyg⟩
            · rcases hsupplies.mem_cases hy with hy | ⟨rfl, horigin⟩
              · exact .inl hy
              · rw [horigin']
                exact .inr ⟨f, List.mem_cons_self, horigin, SymbolTable.symbolOf_suits hsymbol⟩
            · exact .inr ⟨g, List.mem_cons_of_mem f hg, hyg⟩
          · rcases hfailed e he with ⟨g, hg, hfield⟩
            exact ⟨g, List.mem_cons_of_mem f hg, hfield⟩

/-- A new object and the clause that names it, then the fields of its class as
    far as they can be added. -/
theorem expandObject_cases (env : Environment τ) {className : String}
    (h : u.state.Coherent env.classes) (href : .ref ref ∈ u.state.symbols.symbols)
    (hsub : env.classes.isSubclass className (staticClass ref) = true)
    (hnone : u.state.condition.resolution? ref.number = none)
    (htype : Descriptor.isArray className = false) :
    ∃ s, ((env.expandObject ref className).runOn u
          = (.ok (u.state.heap.size + 1), ⟨s, u.journal⟩) ∨
        ∃ e, (env.expandObject ref className).runOn u = (.error e, ⟨s, u.journal⟩) ∧
          Fills ref.origin className (env.classes.fields className) u.state.symbols
            (.error e : Except (ResolveError τ) Unit) s.symbols) ∧
      (∀ may, Changes env.classes may u.state s) ∧ s.condition.clauses =
        u.state.condition.clauses ++ [.resolve ref (.fresh (u.state.heap.size + 1) className)] := by
  have hnew := h.parts.condition.resolvingClause?_none hnone
  rcases PathCondition.assumeExpands_grown u.state.condition htype hnew (expandingClause?_next h)
    with ⟨pc', hrun, hgrown⟩
  have hchange : ∀ may, Change env.classes may u.state
      { u.state with
        heap := (u.state.heap.allocate ⟨className, ref.origin, none, []⟩).2, condition := pc' } :=
    fun may => .object href htype hsub hgrown
  -- From here on the state is coherent, and fields are added one by one.
  rcases addFields_changes (τ := τ)
    (u := ⟨{ u.state with
      heap := (u.state.heap.allocate ⟨className, ref.origin, none, []⟩).2, condition := pc' },
      u.journal⟩) (p := u.state.heap.size + 1) (o := ⟨className, ref.origin, none, []⟩)
    ((hchange fun _ _ => True).kept h).1 (Heap.get?_allocate.2 (.inr ⟨rfl, rfl⟩))
    (h.parts.table.named _ href) htype className (env.classes.fields className) (fun f hf => hf)
    with ⟨r, s, hfields, hchanges, hcondition, hfills⟩
  refine ⟨s, ?_, fun may => (Changes.single (hchange may)).trans (hchanges may), by
    rw [hcondition]; exact hgrown.extends.1⟩
  unfold expandObject
  simp only [TraceM.runOn_bind, TraceM.runOn_state, andThen_ok, TraceM.runOn_setState,
    TraceM.runOn_onCondition, Heap.allocate, hrun, Except.mapError]
  rw [Heap.allocate] at hfields
  rw [hfields]
  cases r with
  | error e => exact .inr ⟨e, rfl, hfills⟩
  | ok _ => exact .inl rfl

/-- The end of every resolution: it is written down, and rules fire. -/
theorem runOn_announce (env : Environment τ) (e : Event) (className : String)
    (kind : TriggerKind) (target : Target) (v : Session) :
    (do
      TraceM.record e
      env.fireFor ref className kind target
      return target : TraceM (ResolveError τ) Target).runOn v = andThen
        ((env.fireFor ref className kind target).runOn ⟨v.state, e :: v.journal⟩)
        fun _ v' => (.ok target, v') := by
  simp only [TraceM.runOn_bind, TraceM.runOn_record, andThen_ok, TraceM.runOn_pure]

variable {env : Environment τ}

/-- A reference that was resolved is announced. -/
theorem announce_outcome {c : Candidate} {how : Resolution} {s : PathState}
    (hsettles : Settles env.classes u.state ref c how s) {e : Event} (hquiet : e.firing? = none)
    (hsilent : e.toldLine? = none) (className : String)
    (hclass : ∀ p type, how = .fresh p type → className = type) :
    env.Outcome ref c u ((do
      TraceM.record e
      env.fireFor ref className how.kind how.target
      return how.target : TraceM (ResolveError τ) Target).runOn ⟨s, u.journal⟩) := by
  rw [runOn_announce]
  exact .announced hsettles hquiet hclass hsilent

/-- An assumption of the path condition that resolves a reference without a new
    object is made, or nothing changes. -/
theorem onCondition_cases (classes : ClassTable) (a : Assumption) {how : Resolution}
    (hclauses : a.clauses = [.resolve ref how]) (href : .ref ref ∈ u.state.symbols.symbols)
    (hold : ∀ p type, how ≠ .fresh p type) (hfits : Fits classes u.state.heap ref how) :
    (∃ e, e.isEarly = true ∧
        (TraceM.onCondition .condition a.make : TraceM (ResolveError τ) Unit).runOn u
          = (.error e, u)) ∨
      ∃ s, (TraceM.onCondition .condition a.make : TraceM (ResolveError τ) Unit).runOn u
          = (.ok (), ⟨s, u.journal⟩) ∧ (∀ may, Change classes may u.state s) ∧
        s.condition.clauses = u.state.condition.clauses ++ [.resolve ref how] := by
  rw [TraceM.runOn_onCondition]
  rcases a.make_cases u.state.condition with ⟨e, he⟩ | ⟨pc, hok, hgrown⟩
  · rw [he]
    exact .inl ⟨_, rfl, rfl⟩
  · rw [hok]
    rw [hclauses] at hgrown
    exact .inr ⟨_, rfl, fun may => .settled href hold hfits hgrown, hgrown.extends.1⟩

theorem resolveNull_outcome (href : .ref ref ∈ u.state.symbols.symbols)
    (hnone : u.state.condition.resolution? ref.number = none) :
    env.Outcome ref .null u ((env.resolveNull ref).runOn u) := by
  unfold resolveNull
  rw [TraceM.runOn_bind]
  rcases onCondition_cases (τ := τ) env.classes (.isNull (some ref)) rfl href
    (fun _ _ h => by cases h) trivial with ⟨e, hearly, he⟩ | ⟨s, hok, hchange, hclauses⟩
  · rw [Assumption.make] at he
    rw [he]
    exact .refused e hearly
  · rw [Assumption.make] at hok
    rw [hok, andThen_ok]
    have hsettles : Settles env.classes u.state ref .null .null s :=
      ⟨hnone, rfl, fun may => .single (hchange may), [], hclauses⟩
    have hend := announce_outcome (e := .nullified ref) hsettles rfl rfl ""
      fun p type h => by cases h
    exact hend

theorem resolveAlias_outcome (p : Int) (href : .ref ref ∈ u.state.symbols.symbols)
    (hnone : u.state.condition.resolution? ref.number = none) :
    env.Outcome ref (.aliasOf p) u ((env.resolveAlias ref p).runOn u) := by
  unfold resolveAlias
  simp only [TraceM.runOn_bind, TraceM.runOn_state, andThen_ok, TraceM.runOn_ofExcept]
  cases ho : u.state.heap.get p with
  | error e => exact .refused _ rfl
  | ok o =>
      simp only [Except.mapError, andThen_ok]
      by_cases hsub : env.classes.isSubclass o.type (staticClass ref) = true
      · simp only [hsub, Bool.not_true, Bool.false_eq_true, if_false]
        rw [TraceM.runOn_bind]
        rcases onCondition_cases (τ := τ) env.classes (.aliases (some ref) p) rfl href
          (fun _ _ h => by cases h) ⟨o, Heap.get?_of_get ho, hsub⟩ with
          ⟨e, hearly, he⟩ | ⟨s, hok, hchange, hclauses⟩
        · rw [Assumption.make] at he
          rw [he]
          exact .refused e hearly
        · rw [Assumption.make] at hok
          rw [hok, andThen_ok]
          have hsettles : Settles env.classes u.state ref (.aliasOf p) (.aliasOf p) s :=
            ⟨hnone, rfl, fun may => .single (hchange may), [], hclauses⟩
          have hend := announce_outcome (e := .aliased ref p o.type) hsettles rfl rfl o.type
            fun p type h => by cases h
          exact hend
      · simp only [hsub, Bool.not_false, if_true]
        exact .refused _ rfl

theorem resolveExpand_outcome (className : String) (h : u.state.Coherent env.classes)
    (href : .ref ref ∈ u.state.symbols.symbols)
    (hnone : u.state.condition.resolution? ref.number = none) :
    env.Outcome ref (.expand className) u ((env.resolveExpand ref className).runOn u) := by
  have hyields : ∀ p, Candidate.Yields ref
      (.fresh p (if className = "" then staticClass ref else className)) (.expand className) :=
    fun p => ⟨p, rfl⟩
  unfold resolveExpand
  generalize (if className = "" then staticClass ref else className) = type at hyields ⊢
  by_cases hsub : env.classes.isSubclass type (staticClass ref) = true
  · simp only [hsub, Bool.not_true, Bool.false_eq_true, if_false]
    by_cases habstract : env.classes.isAbstract type = true
    · simp only [habstract, if_true]
      exact .refused _ rfl
    · simp only [habstract, Bool.false_eq_true, if_false]
      have hclass : ∀ p type', Resolution.fresh (u.state.heap.size + 1) type = .fresh p type' →
          type = type' := fun p type' heq => (Resolution.fresh.inj heq).2
      by_cases harray : Descriptor.isArray type = true
      · -- An array has no fields.
        simp only [harray, if_true]
        rw [TraceM.runOn_bind]
        rcases expandArray_cases (τ := τ) h href hsub hnone harray with
          ⟨e, he⟩ | ⟨s, c, hok, hchange, hclauses⟩
        · rw [he]
          exact .refused (.length e) rfl
        · rw [hok, andThen_ok]
          have hsettles : Settles env.classes u.state ref (.expand className)
              (.fresh (u.state.heap.size + 1) type) s :=
            ⟨hnone, hyields _, fun may => .single (hchange may), [c], hclauses⟩
          have hend := announce_outcome (e := .expanded ref (u.state.heap.size + 1) type) hsettles
            rfl rfl type hclass
          exact hend
      · simp only [harray, Bool.false_eq_true, if_false]
        rw [TraceM.runOn_bind]
        rcases expandObject_cases env h href hsub hnone (Bool.not_eq_true _ ▸ harray) with
          ⟨s, hrun, hchanges, hclauses⟩
        have hsettles : Settles env.classes u.state ref (.expand className)
            (.fresh (u.state.heap.size + 1) type) s := ⟨hnone, hyields _, hchanges, [], hclauses⟩
        rcases hrun with hok | ⟨e, he, hfills⟩
        · rw [hok, andThen_ok]
          have hend := announce_outcome (e := .expanded ref (u.state.heap.size + 1) type) hsettles
            rfl rfl type hclass
          exact hend
        · rw [he]
          exact .broken e hsettles ⟨_, _, rfl, hfills⟩
  · simp only [hsub, Bool.not_false, if_true]
    exact .refused _ rfl

/-- Resolving a reference of the path ends in one of the four ways. -/
theorem resolve_outcome (h : u.state.Coherent env.classes)
    (href : .ref ref ∈ u.state.symbols.symbols) (c : Candidate) :
    env.Outcome ref c u ((env.resolve ref c).runOn u) := by
  unfold resolve
  simp only [TraceM.runOn_bind, TraceM.runOn_state, andThen_ok, TraceM.runOn_ofExcept]
  cases u.state.checkReadable with
  | error e => exact .refused _ rfl
  | ok _ =>
      simp only [Except.mapError, andThen_ok]
      cases hnone : u.state.condition.resolution? ref.number with
      | some r =>
          rcases r with ⟨ref', how⟩
          exact .known (h.parts.clause_of_resolution? href hnone)
      | none =>
          simp only [TraceM.runOn_bind, TraceM.runOn_ofExcept]
          cases u.state.checkActive with
          | error e => exact .refused _ rfl
          | ok _ =>
              cases c with
              | null => exact resolveNull_outcome href hnone
              | aliasOf p => exact resolveAlias_outcome p href hnone
              | expand className => exact resolveExpand_outcome className h href hnone
              | unknown n => exact .refused _ rfl

end Environment

end PathWitness
