import PathWitness.Proofs.TestCase.Declarations

/-!
# Brackets in a Test

An element of an array is written with brackets behind the variable of its root, if
there is nothing but indices on the way to it. Whether it is written like this is read
off the origin alone. The variable, however, is declared with the type of the reference
at the root, which need not be the type of the array that the reference was expanded
to: a reference to an object of any class can be expanded to an array, and its variable
cannot be indexed.

Each reference on the way to an element was expanded to an array. If the type of the
reference is that of an array, then the two are the same, and the type of the next
reference has one dimension less. So the dimensions of the variable are enough as long
as all types on the way are those of arrays, and they have run out as soon as one is not
(`Anchored.dimensions`).

## Main definitions

* `Descriptor.dimensions`: The number of dimensions of a type.
* `TestMethod.indexings`: The variables that a test indexes, with the indices.
* `BehindArrays`: All references on the way to an origin have types of arrays.

## Theorems

* `Assembled.indexes`: The elements that brackets are written for.
* `Anchored.dimensions`: The dimensions at the root of an element.
* `Anchored.behindArrays`: Arrays behind references to arrays.
* `indexings_fit_iff`: When the variables that a test indexes have the dimensions for it.
-/

namespace PathWitness

namespace Descriptor

/-- The number of dimensions of a type. In source text, this is the number of pairs of
    brackets behind it. -/
def dimensions (d : String) : Nat :=
  (d.toList.takeWhile (· == '[')).length

theorem dimensions_of_member {d m : String} (h : member d = .ok m) :
    dimensions d = dimensions m + 1 := by
  unfold member at h
  split at h
  · rename_i rest hd
    rw [← Except.ok.inj h, dimensions, dimensions, hd, String.toList_ofList,
      List.takeWhile_cons_of_pos rfl, List.length_cons]
  · cases h

theorem dimensions_eq_zero {d : String} (h : isArray d = false) : dimensions d = 0 := by
  unfold isArray at h
  unfold dimensions
  cases hd : d.toList with
  | nil => rfl
  | cons c rest =>
      rw [hd] at h
      rw [List.takeWhile_cons_of_neg (by simpa using h)]
      rfl

theorem className_of_isArray {d : String} (h : isArray d = true) : className d = d := by
  unfold isArray at h
  unfold className
  cases hd : d.toList with
  | nil => rfl
  | cons c rest =>
      rw [hd] at h
      obtain rfl : c = '[' := by simpa using h
      rfl

end Descriptor

/-- A reference to an array is expanded to an array of its own type. -/
theorem Fits.type_eq {classes : ClassTable} {heap : Heap} {ref : RefSymbol} {p : Int}
    {type : String} (h : Fits classes heap ref (.fresh p type))
    (harray : Descriptor.isArray ref.type = true) : type = ref.type := by
  obtain ⟨-, -, -, -, hsub⟩ := h
  rw [Environment.staticClass, Descriptor.className_of_isArray harray] at hsub
  have hroot : ref.type ≠ rootClass := by
    intro heq
    rw [heq] at harray
    exact absurd harray (by decide)
  by_contra hne
  have hnot : (decide (type = ref.type) || decide (ref.type = rootClass)) ≠ true := by
    simp [hne, hroot]
  rw [ClassTable.isSubclass, if_neg hnot, harray, Bool.or_true, if_pos rfl] at hsub
  cases hsub

/-- All references on the way to an origin have types of arrays. -/
def BehindArrays (s : PathState) (o : Origin) : Prop :=
  ∀ ref, .ref ref ∈ s.symbols.symbols → ref.origin.root = o.root →
    ref.origin.steps <+: o.steps → ref.origin.steps ≠ o.steps →
    Descriptor.isArray ref.type = true

section Dimensions

variable {classes : ClassTable} {s : PathState} {x : Symbol} {base : RefSymbol} {a : Accessor}

theorem behindArrays_root (name : String) : BehindArrays s (.ofRoot name) :=
  fun _ _ _ hsteps hne => absurd (List.prefix_nil.1 hsteps) hne

/-- One more step is behind one more reference. -/
theorem behindArrays_push (ht : s.symbols.WellFormed) (hbase : .ref base ∈ s.symbols.symbols) :
    BehindArrays s (base.origin.push a) ↔
      BehindArrays s base.origin ∧ Descriptor.isArray base.type = true := by
  have hproper : ∀ {steps : List Accessor}, steps <+: base.origin.steps →
      steps ≠ base.origin.steps ++ [a] := by
    intro steps hprefix heq
    have hlength := hprefix.length_le
    rw [heq, List.length_append, List.length_singleton] at hlength
    exact absurd hlength (Nat.not_succ_le_self _)
  constructor
  · intro h
    refine ⟨fun ref href hroot hsteps _ => ?_, ?_⟩
    · exact h ref href hroot (hsteps.trans (List.prefix_append _ _)) (hproper hsteps)
    · exact h base hbase rfl (List.prefix_append _ _) (hproper List.prefix_rfl)
  · rintro ⟨h, harray⟩ ref href hroot hsteps hne
    have hbefore := (List.prefix_concat_iff.1 hsteps).resolve_left hne
    by_cases hsame : ref.origin.steps = base.origin.steps
    · -- There is one reference at an origin.
      have horigin : ref.origin = base.origin := by
        rw [Origin.mk.injEq]
        exact ⟨hroot, hsame⟩
      have hfound := ht.found _ href
      rw [show (Symbol.ref ref).origin = (Symbol.ref base).origin from horigin,
        ht.found _ hbase] at hfound
      rw [← Symbol.ref.inj (Option.some.inj hfound)]
      exact harray
    · exact h ref href hroot hbefore hsame

/-- The dimensions at the root of an element. They are those of the element and one for
    each index, if there are arrays all the way. Otherwise they are less than the
    indices. -/
theorem Anchored.dimensions (hcoherent : s.Coherent classes)
    (h : Anchored classes s.frame s.condition.clauses x) (hx : x ∈ s.symbols.symbols)
    (hindices : ∀ a ∈ x.origin.steps, ∃ i, a = .index i) :
    ∃ y ∈ s.symbols.symbols, y.origin = .ofRoot x.origin.root ∧
      (BehindArrays s x.origin → Descriptor.dimensions y.type
        = x.origin.steps.length + Descriptor.dimensions x.type) ∧
      (¬ BehindArrays s x.origin → Descriptor.dimensions y.type < x.origin.steps.length) := by
  induction h with
  | @root x v hv horigin =>
      refine ⟨x, hx, by rw [horigin]; rfl, fun _ => ?_, fun hnot => absurd ?_ hnot⟩
      · rw [horigin]
        exact (Nat.zero_add _).symm
      · rw [horigin]
        exact behindArrays_root _
  | @slot x base p type a _ hclause horigin ha hmember ih =>
      have hbase := hcoherent.parts.references _ _ hclause
      have hsteps : x.origin.steps = base.origin.steps ++ [a] := by rw [horigin]; rfl
      obtain ⟨y, hy, hroot, hall, hsome⟩ := ih hbase fun b hb =>
        hindices b (by rw [hsteps]; exact List.mem_append_left _ hb)
      obtain ⟨i, hi⟩ := hindices a
        (by rw [hsteps]; exact List.mem_append_right _ List.mem_cons_self)
      have hdims := Descriptor.dimensions_of_member (hmember i hi)
      refine ⟨y, hy, hroot.trans (by rw [horigin]; rfl), fun harrays => ?_, fun hnot => ?_⟩
      · rw [horigin] at harrays
        obtain ⟨hbefore, harray⟩ := (behindArrays_push hcoherent.parts.table hbase).1 harrays
        rw [(hcoherent.parts.clauses _ _ hclause).type_eq harray] at hdims
        have hdeclared : Descriptor.dimensions y.type
            = base.origin.steps.length + Descriptor.dimensions base.type := hall hbefore
        rw [hdeclared, hdims, hsteps, List.length_append, List.length_singleton]
        omega
      · rw [horigin, behindArrays_push hcoherent.parts.table hbase, not_and] at hnot
        rw [hsteps, List.length_append, List.length_singleton]
        by_cases hbefore : BehindArrays s base.origin
        · -- The dimensions have run out at this reference.
          have hzero := Descriptor.dimensions_eq_zero (Bool.eq_false_iff.2 (hnot hbefore))
          rw [hall hbefore, show (Symbol.ref base).type = base.type from rfl, hzero]
          exact Nat.lt_succ_self _
        · exact Nat.lt_succ_of_lt (hsome hbefore)

/-- If references that are expanded to arrays have types of arrays, then there are arrays
    all the way to an element. -/
theorem Anchored.behindArrays (hcoherent : s.Coherent classes)
    (harrays : ∀ ref p type, .resolve ref (.fresh p type) ∈ s.condition.clauses →
      Descriptor.isArray type = true → Descriptor.isArray ref.type = true)
    (h : Anchored classes s.frame s.condition.clauses x)
    (hindices : ∀ a ∈ x.origin.steps, ∃ i, a = .index i) : BehindArrays s x.origin := by
  induction h with
  | root hv horigin =>
      rw [horigin]
      exact behindArrays_root _
  | @slot x base p type a _ hclause horigin ha hmember ih =>
      have hsteps : x.origin.steps = base.origin.steps ++ [a] := by rw [horigin]; rfl
      rw [horigin, behindArrays_push hcoherent.parts.table
        (hcoherent.parts.references _ _ hclause)]
      refine ⟨ih fun b hb => hindices b (by rw [hsteps]; exact List.mem_append_left _ hb),
        harrays base p type hclause ?_⟩
      obtain ⟨i, rfl⟩ := hindices a
        (by rw [hsteps]; exact List.mem_append_right _ List.mem_cons_self)
      rcases ha with hoffers | ⟨hlength, -⟩
      · cases hoffers with
        | element harray _ => exact harray
      · cases hlength

end Dimensions

namespace TestCase

open Setup

/-- The variable that a source indexes, with the indices. -/
def Source.indexings : Source → List (String × List Int)
  | element name indices => [(name, indices)]
  | cast _ w => w.indexings
  | _ => []

/-- The variables that a statement indexes, with the indices. -/
def Statement.indexings : Statement → List (String × List Int)
  | declare _ _ w => w.indexings
  | storeElement name indices w => (name, indices) :: w.indexings
  | storeChain _ _ w => w.indexings

/-- The variables that an assertion indexes, with the indices. -/
def Assertion.indexings : Assertion → List (String × List Int)
  | source w => w.indexings
  | _ => []

/-- The variables that a test indexes, with the indices. -/
def TestMethod.indexings (t : TestMethod) : List (String × List Int) :=
  t.setup.flatMap Statement.indexings ++ (t.result.map fun r => r.2.indexings).getD []

/-- The indices are those on the way to a symbol, behind the variable of its root. -/
def Indexes (s : PathState) (st : Setup) (e : String × List Int) : Prop :=
  ∃ x ∈ s.symbols.symbols, isIndexChain x.origin = true ∧ st.Addresses x.origin ∧
    e = (rootVariable x.origin.root, indicesOf x.origin)

variable {classes : ClassTable} {ctx : Context} {s : PathState} {done : List Clause}
  {st st' : Setup} {e : String × List Int}

section Writing

theorem Indexes.mono (hroots : st.roots ⊆ st'.roots) (h : Indexes s st e) : Indexes s st' e := by
  obtain ⟨x, hx, hchain, ⟨hroot, hwalk⟩, he⟩ := h
  exact ⟨x, hx, hchain, ⟨hroots hroot, hwalk⟩, he⟩

theorem indexings_reading {o : Origin} {type : String} (h : e ∈ (reading o type).indexings) :
    isIndexChain o = true ∧ e = (rootVariable o.root, indicesOf o) := by
  unfold reading at h
  split at h
  · exact absurd h List.not_mem_nil
  · split at h
    · rename_i hchain
      exact ⟨hchain, List.mem_singleton.1 h⟩
    · exact absurd h List.not_mem_nil

theorem indexings_aliasing {ref target : RefSymbol} (h : e ∈ (aliasing ref target).indexings) :
    e ∈ (reading target.origin ref.type).indexings := by
  unfold aliasing at h
  split at h
  · exact absurd h List.not_mem_nil
  · split at h
    · exact h
    · exact h

theorem indexings_writing {o : Origin} {w : Source} (h : e ∈ (writing o w).indexings) :
    (isIndexChain o = true ∧ e = (rootVariable o.root, indicesOf o)) ∨ e ∈ w.indexings := by
  unfold writing at h
  split at h
  · rename_i hchain
    exact (List.mem_cons.1 h).imp_left fun heq => ⟨hchain, heq⟩
  · exact .inr h

/-- An alias of an element is read with brackets. -/
theorem Provides.indexes (hcoherent : s.Coherent classes)
    (hdone : ∀ c ∈ done, c ∈ s.condition.clauses) {ref : RefSymbol} {how : Resolution} {v : Source}
    (h : Provides done st ref how v) (he : e ∈ v.indexings) : Indexes s st e := by
  cases h with
  | null => exact absurd he List.not_mem_nil
  | object p type => exact absurd he List.not_mem_nil
  | array p type length => exact absurd he List.not_mem_nil
  | same htarget haddress =>
      obtain ⟨hchain, heq⟩ := indexings_reading (indexings_aliasing he)
      exact ⟨_, hcoherent.parts.references _ _ (hdone _ htarget), hchain, haddress, heq⟩

theorem indexings_give {x : PrimSymbol} {v : Const}
    (h : e ∈ (st.give x v).statements.flatMap Statement.indexings) :
    e ∈ st.statements.flatMap Statement.indexings ∨
      (x.origin.isRoot = false ∧ x.origin.last? ≠ some .length ∧ isIndexChain x.origin = true ∧
        e = (rootVariable x.origin.root, indicesOf x.origin)) := by
  rw [Setup.give, List.flatMap_append, List.mem_append] at h
  refine h.imp_right fun hnew => ?_
  rw [List.flatMap_cons, List.mem_append] at hnew
  have hnew := hnew.resolve_left List.not_mem_nil
  split at hnew
  · exact absurd hnew List.not_mem_nil
  · rename_i hnested
    obtain ⟨hroot, hlast⟩ : x.origin.isRoot = false ∧ x.origin.last? ≠ some .length := by
      simpa using hnested
    rw [List.flatMap_singleton] at hnew
    obtain ⟨hchain, heq⟩ := (indexings_writing hnew).resolve_right List.not_mem_nil
    exact ⟨hroot, hlast, hchain, heq⟩

theorem indexings_settle {ref : RefSymbol} {v : Source}
    (h : e ∈ (st.settle ref v).statements.flatMap Statement.indexings) :
    e ∈ st.statements.flatMap Statement.indexings ∨ e ∈ v.indexings ∨
      (ref.origin.isRoot = false ∧ isIndexChain ref.origin = true ∧
        e = (rootVariable ref.origin.root, indicesOf ref.origin)) := by
  unfold Setup.settle at h
  split at h
  · rw [List.flatMap_append, List.mem_append, List.flatMap_singleton] at h
    exact h.imp_right .inl
  · rename_i hroot
    rw [List.flatMap_append, List.mem_append, List.flatMap_singleton] at h
    refine h.imp_right fun hnew => (indexings_writing hnew).symm.imp_right fun hwritten => ?_
    exact ⟨Bool.eq_false_iff.2 hroot, hwritten⟩

/-- Brackets are written for elements alone. -/
theorem Assembled.indexes (h : Assembled ctx s done st) (hcoherent : s.Coherent classes)
    (hdone : ∀ c ∈ done, c ∈ s.condition.clauses)
    (he : e ∈ st.statements.flatMap Statement.indexings) : Indexes s st e := by
  induction h with
  | start => exact absurd he List.not_mem_nil
  | @given _ st x v _ hx _ _ _ haddress ih =>
      have hroots : st.roots ⊆ (st.give x v).roots := fun _ hr => mem_roots_give.2 (.inr hr)
      rcases indexings_give he with hold | ⟨hroot, hlast, hchain, heq⟩
      · exact (ih hdone hold).mono hroots
      · have haddress := (haddress.resolve_left (Bool.eq_false_iff.1 hroot)).resolve_left hlast
        exact Indexes.mono hroots ⟨_, hx, hchain, haddress, heq⟩
  | @settled done st ref how v _ href _ _ hprovides haddress ih =>
      have hroots : st.roots ⊆ (st.settle ref v).roots := fun _ hr => mem_roots_settle.2 (.inr hr)
      have hbefore : ∀ c ∈ done, c ∈ s.condition.clauses := fun c hc =>
        hdone c (List.mem_append_left _ hc)
      rcases indexings_settle he with hold | hread | ⟨hroot, hchain, heq⟩
      · exact (ih hbefore hold).mono hroots
      · exact (hprovides.indexes hcoherent hbefore hread).mono hroots
      · have haddress := haddress.resolve_left (Bool.eq_false_iff.1 hroot)
        exact Indexes.mono hroots ⟨_, href, hchain, haddress, heq⟩
  | passed _ _ ih => exact ih (fun c hc => hdone c (List.mem_append_left _ hc)) he

/-- So is what is expected of the returned value. -/
theorem Asserts.indexes {w : Source} (h : Asserts s st w) (he : e ∈ w.indexings) :
    Indexes s st e := by
  rcases h with rfl | ⟨ref, href, haddress, rfl⟩
  · exact absurd he List.not_mem_nil
  · obtain ⟨hchain, heq⟩ := indexings_reading he
    exact ⟨_, href, hchain, haddress, heq⟩

end Writing

section Tests

variable {t : TestMethod}

/-- What a test indexes, in its statements or in what it expects. -/
theorem indexes_of_mem (hcoherent : s.Coherent classes)
    (hst : Assembled ctx s s.condition.clauses st) (hsetup : t.setup = st.statements)
    (hasserts : ∀ type w, t.result = some (type, .source w) → Asserts s st w)
    (he : e ∈ t.indexings) : Indexes s st e := by
  rcases List.mem_append.1 he with hstatement | hresult
  · rw [hsetup] at hstatement
    exact hst.indexes hcoherent (fun _ hc => hc) hstatement
  · cases hr : t.result with
    | none =>
        rw [hr] at hresult
        exact absurd hresult List.not_mem_nil
    | some r =>
        obtain ⟨type, assertion⟩ := r
        rw [hr] at hresult
        cases assertion with
        | source w => exact (hasserts type w hr).indexes hresult
        | truth b => exact absurd hresult List.not_mem_nil
        | expression text => exact absurd hresult List.not_mem_nil
        | notNull => exact absurd hresult List.not_mem_nil

/-- A variable has one type, if the names of variables differ as identifiers. -/
theorem type_of_locals (hcoherent : s.Coherent classes) (hgrounded : s.Grounded classes)
    (hst : Assembled ctx s s.condition.clauses st) (hsetup : t.setup = st.statements)
    (hnames : ∀ v ∈ s.frame, ∀ w ∈ s.frame, identifierText v.name = identifierText w.name →
      v.name = w.name) {root type type' : String} (h : (type, rootVariable root) ∈ t.locals)
    (h' : (type', rootVariable root) ∈ t.locals) : type = type' := by
  obtain ⟨owners, hnodup, hlocals, howns⟩ := hst.owners
  -- The variable belongs to a symbol, and not to the returned value.
  have howner : ∀ {type : String}, (type, rootVariable root) ∈ t.locals →
      ∃ y ∈ owners, y.type = type ∧ variableName y = rootVariable root := by
    intro type hmem
    rw [TestMethod.locals, hsetup, hlocals, List.mem_append] at hmem
    rcases hmem with hmem | hmem
    · obtain ⟨y, hy, heq⟩ := List.mem_map.1 hmem
      exact ⟨y, hy, Prod.mk.inj heq⟩
    · cases hr : t.result with
      | none =>
          rw [hr] at hmem
          exact absurd hmem List.not_mem_nil
      | some r =>
          rw [hr] at hmem
          exact absurd (Prod.mk.inj (List.mem_singleton.1 hmem)).2
            (returnedName_ne_variableName (.ref ⟨0, "", .ofRoot root⟩))
  obtain ⟨y, hy, rfl, hyname⟩ := howner h
  obtain ⟨y', hy', rfl, hyname'⟩ := howner h'
  have hdistinct := nodup_variableName hcoherent hgrounded hnodup howns hnames
  rw [List.inj_on_of_nodup_map hdistinct hy hy' (hyname.trans hyname'.symm)]

/-- The conditions and the returned value of a path are about its own symbols. Then
    whatever a test indexes is an element `x` of the path, with the variable of a symbol
    `y` at its root, which was declared with the type of `y`. The type has a dimension
    for each index if and only if the references on the way to the element have types of
    arrays. They do if no other reference was expanded to an array. The variable has no
    other declaration, if the names of variables differ as identifiers. -/
theorem indexings_fit_iff {signature : Signature} {isStatic : Bool} {parameters : List String}
    {journal : Journal} {u : Session} {initialRoots : List String} {number : Nat}
    {initial : PathState} {m : Option Model} {t : TestMethod}
    (henter : PathState.enter signature isStatic parameters = .ok s)
    (hfollows : Follows (Conduct.ownSymbols classes) ⟨s, journal⟩ u)
    (hreturns : u.state.ReturnsOwn) (htest : ofPath initialRoots number initial u.state m = .ok t)
    {name : String} {indices : List Int} (hindexed : (name, indices) ∈ t.indexings) :
    ∃ x ∈ u.state.symbols.symbols, ∃ y ∈ u.state.symbols.symbols,
      y.origin = .ofRoot x.origin.root ∧ name = rootVariable x.origin.root ∧
      indices = indicesOf x.origin ∧ indices.length = x.origin.steps.length ∧
      (y.type, name) ∈ t.locals ∧
      (indices.length ≤ Descriptor.dimensions y.type ↔ BehindArrays u.state x.origin) ∧
      ((∀ ref p type, .resolve ref (.fresh p type) ∈ u.state.condition.clauses →
        Descriptor.isArray type = true → Descriptor.isArray ref.type = true) →
        BehindArrays u.state x.origin) ∧
      ((∀ v ∈ u.state.frame, ∀ w ∈ u.state.frame,
          identifierText v.name = identifierText w.name → v.name = w.name) →
        ∀ type, (type, name) ∈ t.locals → type = y.type) := by
  obtain ⟨hcoherent, hgrounded⟩ := grounded_of_follows henter hfollows
  obtain ⟨st, hst, hsetup, hasserts⟩ := ofPath_assembled hcoherent hgrounded hreturns htest
  obtain ⟨x, hx, hchain, ⟨hroot, hwalk⟩, heq⟩ :=
    indexes_of_mem hcoherent hst hsetup hasserts hindexed
  obtain ⟨rfl, rfl⟩ := Prod.mk.inj heq
  have hindices := indices_of_isIndexChain hchain
  have hanchored := hgrounded.symbols x hx
  obtain ⟨y, hy, horigin, hall, hsome⟩ := hanchored.dimensions hcoherent hx hindices
  have hlength := length_indicesOf hchain hwalk
  -- The declaration of the root is for this symbol.
  have hdeclared : (y.type, rootVariable x.origin.root) ∈ t.locals := by
    obtain ⟨z, hz, hzorigin, -, v, hv⟩ := hst.declared hroot
    have hfound := hcoherent.parts.table.found z hz
    rw [hzorigin, ← horigin, hcoherent.parts.table.found y hy] at hfound
    rw [← Option.some.inj hfound] at hv
    rw [TestMethod.locals, hsetup]
    exact List.mem_append_left _ (List.mem_filterMap.2 ⟨_, hv, rfl⟩)
  refine ⟨x, hx, y, hy, horigin, rfl, rfl, hlength, hdeclared, ?_,
    fun harrays => hanchored.behindArrays hcoherent harrays hindices, fun hnames type htype =>
    type_of_locals hcoherent hgrounded hst hsetup hnames htype hdeclared⟩
  rw [hlength]
  constructor
  · intro hle
    by_contra hnot
    exact absurd hle (Nat.not_le.2 (hsome hnot))
  · intro harrays
    rw [hall harrays]
    exact Nat.le_add_right _ _

/-- An array that is declared as one. -/
theorem indexings_fit_iff_sought :
    PathState.enter searchMethod true ["list", "keys"] = .ok searchEntry ∧
      Follows (Conduct.ownSymbols nodeClasses) ⟨searchEntry, []⟩ soughtSession ∧
      soughtSession.state.ReturnsOwn ∧
      ∃ t, ofPath [] 0 searchEntry soughtSession.state (some soughtModel) = .ok t ∧
        ("__keys", [3]) ∈ t.indexings ∧
        ∀ type, (type, "__keys") ∈ t.locals → 1 ≤ Descriptor.dimensions type := by
  have hindexings : (ofPath [] 0 searchEntry soughtSession.state (some soughtModel)).toOption.map
      TestMethod.indexings = some [("__keys", [3])] := by decide +kernel
  have hresolved : ∀ c ∈ soughtSession.state.condition.clauses, ∀ r, c.resolution? = some r →
      r.1.type = "[I" ∨ r.2 ∈ [.fresh 1 "Node", .fresh 2 "Node", .aliasOf 1] := by decide +kernel
  cases htest : ofPath [] 0 searchEntry soughtSession.state (some soughtModel) with
  | error e =>
      rw [htest] at hindexings
      cases hindexings
  | ok t =>
      rw [htest] at hindexings
      have hindexed : ("__keys", [3]) ∈ t.indexings := by
        rw [Option.some.inj hindexings]
        exact List.mem_cons_self
      obtain ⟨x, -, y, -, -, -, -, -, -, hfits, harrays, htype⟩ :=
        indexings_fit_iff enter_search soughtSession_follows trivial htest hindexed
      refine ⟨enter_search, soughtSession_follows, trivial, t, rfl, hindexed, fun type hlocal => ?_⟩
      rw [htype (by decide +kernel) type hlocal]
      refine hfits.2 (harrays fun ref p type hclause harray => ?_)
      rcases hresolved _ hclause _ rfl with htype | hnode
      · rw [show ref.type = "[I" from htype]
        decide
      · obtain rfl : type = "Node" := by
          simp only [List.mem_cons, Resolution.fresh.injEq, reduceCtorEq, List.not_mem_nil,
            or_false] at hnode
          exact hnode.elim And.right And.right
        exact absurd harray (by decide)

/-- A method that is given an object of any class. -/
def scanMethod : Signature := ⟨"Search", "(Ljava/lang/Object;)V", "scan"⟩

/-- The state at the entry of the method. -/
def scanEntry : PathState where
  signature := scanMethod
  isStatic := true
  frame := [⟨0, "o", "Ljava/lang/Object;", .ref ⟨0, "Ljava/lang/Object;", .ofRoot "o"⟩⟩]
  symbols := ⟨[.ref ⟨0, "Ljava/lang/Object;", .ofRoot "o"⟩]⟩

/-- The first element of the array is positive. -/
def scanCondition : Term :=
  .binary (.comparison .gt) (.symbol ⟨2, .int, ⟨"o", [.index "0"]⟩⟩) (.const (.int 0))

/-- The object is an array, and its first element is positive. -/
def scannedSession : Session :=
  let u := ((nodeEnvironment.resolve ⟨0, "Ljava/lang/Object;", .ofRoot "o"⟩ (.expand "[I")).runOn
    ⟨scanEntry, []⟩).2
  let s := ((PathState.lookup ⟨"o", [.index "0"]⟩).runOn u.state).2
  ⟨{ s with condition := ((PathCondition.assume (some scanCondition)).runOn s.condition).2 },
    u.journal⟩

theorem enter_scan : PathState.enter scanMethod true ["o"] = .ok scanEntry := by
  have hparameters : Descriptor.parameters scanMethod.descriptor
      = .ok [.typed "Ljava/lang/Object;"] := by cbv
  have hresult : Descriptor.result scanMethod.descriptor = .ok "V" := by cbv
  rw [PathState.enter, hparameters, hresult]
  rfl

theorem scannedSession_follows :
    Follows (Conduct.ownSymbols nodeClasses) ⟨scanEntry, []⟩ scannedSession := by
  refine .assume (some scanCondition) (fun t ht x hx => ?_)
    (.lookup ⟨"o", [.index "0"]⟩ (.resolve_node ⟨0, "Ljava/lang/Object;", .ofRoot "o"⟩
      (.expand "[I") (.refl ⟨scanEntry, []⟩) (by decide +kernel)))
  obtain rfl := Option.some.inj ht
  revert x
  decide +kernel

/-- A variable is indexed that was declared as an object. -/
theorem object_indexed :
    PathState.enter scanMethod true ["o"] = .ok scanEntry ∧
      Follows (Conduct.ownSymbols nodeClasses) ⟨scanEntry, []⟩ scannedSession ∧
      scannedSession.state.ReturnsOwn ∧
      ∃ t, ofPath [] 0 scanEntry scannedSession.state
          (some ((Model.empty.insert 1 (.int 1)).insert 2 (.int 2))) = .ok t ∧
        ("__o", [0]) ∈ t.indexings ∧ ("Ljava/lang/Object;", "__o") ∈ t.locals ∧
        Descriptor.dimensions "Ljava/lang/Object;" = 0 :=
  ⟨enter_scan, scannedSession_follows, trivial, _, rfl, by decide +kernel, by decide +kernel,
    by decide +kernel⟩

end Tests

end TestCase

end PathWitness
