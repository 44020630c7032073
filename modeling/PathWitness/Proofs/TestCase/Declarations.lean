import PathWitness.Proofs.TestCase.Assembly
import PathWitness.Proofs.TestCase.Walk

/-!
# The Local Variables of a Test

A test declares a variable for each primitive symbol that gets a value, and for each
reference at a root. The name of a variable comes from one of two sources: the number
of a symbol, or the name of a root with every character replaced that cannot be part
of an identifier. Numbers belong to one symbol, and the two kinds of names start
differently. The names of roots are where two variables can meet, since different
names can be the same identifier.

`Assembled.owners` lists the symbols that the variables were declared for, each once.
That the variables have different names is then a question about the roots in the
list alone.

## Main definitions

* `TestMethod.locals`: The variables that a test declares, with their types.
* `variableName`: The variable of a symbol.
* `PathState.ReturnsOwn`: A path returns a value about its own symbols.

## Theorems

* `ofPath_assembled`: How the statements and the assertion of a test come about.
* `Assembled.owners`: The symbols that variables were declared for.
* `nodup_variableName_iff`, `nodup_variableName`: When the variables of symbols have
  different names.
* `locals_nodup_iff`: When a test declares no variable twice.
-/

namespace PathWitness

/-- A path returns a value about its own symbols. -/
def PathState.ReturnsOwn (s : PathState) : Prop :=
  match s.returned with
  | some (.term t) => ∀ x ∈ t.occurrences, .prim x ∈ s.symbols.symbols
  | some (.ref (.symbolic ref)) => .ref ref ∈ s.symbols.symbols
  | _ => True

/-- The clause that created an object is one of the clauses. -/
theorem PathCondition.clause_of_expansion? {pc : PathCondition} {p : Int} {ref : RefSymbol}
    {how : Resolution} (h : pc.expansion? p = some (ref, how)) : .resolve ref how ∈ pc.clauses := by
  obtain ⟨c, hc, hresolution⟩ := Option.bind_eq_some_iff.1 h
  obtain ⟨i, -, hget⟩ := Option.bind_eq_some_iff.1 hc
  cases c with
  | resolve ref' how' =>
      obtain ⟨rfl, rfl⟩ := Prod.mk.inj (Option.some.inj hresolution)
      exact List.mem_of_getElem? hget
  | assume t => cases hresolution
  | initialized name => cases hresolution

namespace TestCase

open Setup

/-- The variable that a statement declares, with its type. -/
def Statement.local? : Statement → Option (String × String)
  | declare type name _ => some (type, name)
  | _ => none

/-- The variables that a test declares, with their types. -/
def TestMethod.locals (t : TestMethod) : List (String × String) :=
  t.setup.filterMap Statement.local? ++ (t.result.map fun r => (r.1, returnedName)).toList

/-- The variable of a symbol. -/
def variableName : Symbol → String
  | .prim x => variableOf x
  | .ref ref => rootVariable ref.origin.root

variable {classes : ClassTable} {ctx : Context} {s : PathState} {done : List Clause}
  {st st' : Setup} {x : PrimSymbol} {v : Const} {ref : RefSymbol}

section Methods

theorem nameOf?_give_self : (st.give x v).nameOf? x.id = some (variableOf x) := by
  rw [Setup.nameOf?, Setup.give, List.lookup_cons, beq_self_eq_true]

theorem bound_give {id : String} (h : (st.nameOf? id).isSome) :
    ((st.give x v).nameOf? id).isSome := by
  rw [Setup.nameOf?, Setup.give, List.lookup_cons]
  split
  · rfl
  · exact h

/-- A step that is made for each element keeps what it keeps. What it brings about for
    an element is there in the end, if no step undoes it. -/
theorem forM_visits {α : Type} {P : Setup → Prop} {Q : α → Setup → Prop} {step : α → SetupM Unit}
    {xs : List α} (hstep : ∀ x ∈ xs, ∀ st st', (step x).run st = .ok ((), st') → P st →
      P st' ∧ Q x st' ∧ ∀ y, Q y st → Q y st')
    (hrun : (xs.forM step).run st = .ok ((), st')) (h : P st) :
    P st' ∧ (∀ x ∈ xs, Q x st') ∧ ∀ y, Q y st → Q y st' := by
  induction xs generalizing st with
  | nil =>
      obtain ⟨-, rfl⟩ := Prod.mk.inj (Except.ok.inj hrun)
      exact ⟨h, fun x hx => absurd hx List.not_mem_nil, fun _ hy => hy⟩
  | cons x xs ih =>
      rw [List.forM, StateT.run_bind] at hrun
      obtain ⟨⟨_, st₁⟩, hfirst, hrest⟩ := bind_eq_ok hrun
      obtain ⟨h₁, hx, hkept₁⟩ := hstep x List.mem_cons_self st st₁ hfirst h
      obtain ⟨h', hxs, hkept⟩ := ih (fun y hy => hstep y (List.mem_cons_of_mem x hy)) hrest h₁
      refine ⟨h', fun y hy => ?_, fun y hy => hkept y (hkept₁ y hy)⟩
      rcases List.mem_cons.1 hy with rfl | hy
      · exact hkept y hx
      · exact hxs y hy

/-- Symbols of the returned value get variables like any others: all that have a value
    and were not there before the path began. -/
theorem bindReturned_assembled (hgrounded : s.Grounded classes)
    (h : Assembled ctx s s.condition.clauses st) {t : Term}
    (hown : ∀ x ∈ t.occurrences, .prim x ∈ s.symbols.symbols)
    (hrun : (bindReturned ctx t).run st = .ok ((), st')) :
    Assembled ctx s s.condition.clauses st' ∧
      ∀ x ∈ t.symbols, ctx.isInitial x.origin = false → (ctx.model.get? x.number).isSome →
        (st'.nameOf? x.id).isSome := by
  refine (forM_visits (Q := fun x st => ctx.isInitial x.origin = false →
    (ctx.model.get? x.number).isSome → (st.nameOf? x.id).isSome)
    (fun x hx st st' hstep hst => ?_) hrun h).imp_right And.left
  rw [run_get_bind] at hstep
  by_cases hskip : ((st.nameOf? x.id).isSome || ctx.isInitial x.origin) = true
  · rw [if_pos hskip] at hstep
    obtain ⟨-, rfl⟩ := Prod.mk.inj (Except.ok.inj hstep)
    refine ⟨hst, fun hinitial _ => ?_, fun _ hy => hy⟩
    rwa [hinitial, Bool.or_false] at hskip
  · rw [if_neg hskip] at hstep
    obtain ⟨hunbound, hinitial⟩ : st.nameOf? x.id = none ∧ ctx.isInitial x.origin = false := by
      simpa using hskip
    cases hv : ctx.model.get? x.number with
    | none =>
        rw [hv] at hstep
        obtain ⟨-, rfl⟩ := Prod.mk.inj (Except.ok.inj hstep)
        exact ⟨hst, fun _ hsome => absurd hsome Bool.false_ne_true, fun _ hy => hy⟩
    | some v =>
        have hx' := hown x (mem_of_mem_firstOccurrences hx)
        have haddress := (hst.addresses (fun _ hc => hc) (hgrounded.symbols _ hx')
          hinitial).imp_right (Or.imp_left And.left)
        have hgive := declarePrimitive_eq ctx v haddress
        rw [hv] at hstep
        obtain ⟨-, rfl⟩ := Prod.mk.inj (Except.ok.inj (hgive.symm.trans hstep))
        refine ⟨hst.given hx' (fun _ => hinitial) hunbound hv haddress, fun _ _ => ?_,
          fun y hy hyinitial hyvalue => bound_give (hy hyinitial hyvalue)⟩
        rw [nameOf?_give_self]
        rfl

/-- What is read is behind a root with a variable. -/
theorem readOrigin_ok {o : Origin} {type : String} {w : Source} (hwalk : o.Walkable)
    (hrun : (readOrigin ctx o type).run st = .ok (w, st')) :
    st.Addresses o ∧ w = reading o type := by
  by_cases hroot : o.root ∈ st.roots
  · rw [readOrigin_eq ctx hroot hwalk] at hrun
    exact ⟨⟨hroot, hwalk⟩, (Prod.mk.inj (Except.ok.inj hrun)).1.symm⟩
  · rw [readOrigin_unrooted ctx hroot] at hrun
    cases hrun

/-- The expression of an assertion is null, or it is for a reference of the path. -/
def Asserts (s : PathState) (st : Setup) (w : Source) : Prop :=
  w = .null ∨ ∃ ref, .ref ref ∈ s.symbols.symbols ∧ st.Addresses ref.origin ∧
    w = reading ref.origin ref.type

theorem walkable_of_ref (hgrounded : s.Grounded classes) (href : .ref ref ∈ s.symbols.symbols) :
    ref.origin.Walkable := by
  rcases (hgrounded.symbols _ href).addressed fun _ hc => hc with ⟨hwalk, -⟩ | ⟨-, n, hn⟩
  · exact hwalk
  · cases hn

theorem targetAssertion_asserts (hcoherent : s.Coherent classes) (hgrounded : s.Grounded classes)
    (hctx : ctx.condition = s.condition) {heap : Heap} {target : Target} {w : Source}
    (hrun : (targetAssertion ctx heap target).run st = .ok (.source w, st')) : Asserts s st w := by
  cases target with
  | null => exact .inl (Assertion.source.inj (Prod.mk.inj (Except.ok.inj hrun)).1).symm
  | object p =>
      simp only [targetAssertion, hctx] at hrun
      cases hexpansion : s.condition.expansion? p with
      | none =>
          rw [hexpansion] at hrun
          simp only at hrun
          split at hrun
          · cases hrun
          · cases hrun
      | some r =>
          obtain ⟨ref, how⟩ := r
          have href := hcoherent.parts.references _ _
            (PathCondition.clause_of_expansion? hexpansion)
          rw [hexpansion] at hrun
          simp only [StateT.run_bind] at hrun
          obtain ⟨⟨w', st₁⟩, hread, hrest⟩ := bind_eq_ok hrun
          obtain rfl := Assertion.source.inj (Prod.mk.inj (Except.ok.inj hrest)).1
          exact .inr ⟨ref, href, readOrigin_ok (walkable_of_ref hgrounded href) hread⟩

theorem referenceAssertion_asserts (hcoherent : s.Coherent classes)
    (hgrounded : s.Grounded classes) (hctx : ctx.condition = s.condition) {heap : Heap}
    {r : Reference} {w : Source} (hown : ∀ ref, r = .symbolic ref → .ref ref ∈ s.symbols.symbols)
    (hrun : (referenceAssertion ctx heap r).run st = .ok (.source w, st')) : Asserts s st w := by
  cases r with
  | resolved target => exact targetAssertion_asserts hcoherent hgrounded hctx hrun
  | symbolic ref =>
      simp only [referenceAssertion] at hrun
      cases hresolution : ctx.condition.resolution? ref.number with
      | some r =>
          rw [hresolution] at hrun
          exact targetAssertion_asserts hcoherent hgrounded hctx hrun
      | none =>
          rw [hresolution] at hrun
          simp only [run_get_bind] at hrun
          split at hrun
          · simp only [StateT.run_bind] at hrun
            obtain ⟨⟨w', st₁⟩, hread, hrest⟩ := bind_eq_ok hrun
            obtain rfl := Assertion.source.inj (Prod.mk.inj (Except.ok.inj hrest)).1
            have href := hown ref rfl
            exact .inr ⟨ref, href, readOrigin_ok (walkable_of_ref hgrounded href) hread⟩
          · exact .inl (Assertion.source.inj (Prod.mk.inj (Except.ok.inj hrun)).1).symm

/-- The assertion on a primitive value is no comparison with an expression for a
    reference. -/
theorem termAssertion_ne_source {t : Term} {w : Source} :
    (termAssertion ctx t).run st ≠ .ok (.source w, st') := by
  intro hrun
  unfold termAssertion at hrun
  split at hrun
  · split at hrun <;> cases hrun
  · rw [run_get_bind] at hrun
    split at hrun <;> cases hrun

theorem returned_of_returnedValue {initial : PathState} {type : String} {v : Value}
    (h : returnedValue initial s type = .ok (some v)) : s.returned = some v := by
  unfold returnedValue at h
  split at h
  · cases h
  · split at h
    · rename_i v' hv
      rw [hv, Option.some.inj (Except.ok.inj h)]
    · cases h

/-- How the statements for all clauses come about. -/
theorem walk_assembled (hcoherent : s.Coherent classes) (hgrounded : s.Grounded classes)
    {initialRoots : List String} {m : Option Model}
    (hrun : (walk (contextOf initialRoots s m) s.condition.clauses).run {} = .ok ((), st)) :
    Assembled (contextOf initialRoots s m) s s.condition.clauses st := by
  rcases walk_path_assembles hcoherent hgrounded initialRoots m with
    ⟨st', hrun', hst'⟩ | ⟨e, hrun', -⟩
  · obtain ⟨-, rfl⟩ := Prod.mk.inj (Except.ok.inj (hrun'.symm.trans hrun))
    exact hst'
  · cases hrun'.symm.trans hrun

/-- How the statements and the assertion of a test come about. -/
theorem ofPath_assembled (hcoherent : s.Coherent classes) (hgrounded : s.Grounded classes)
    (hreturns : s.ReturnsOwn) {initialRoots : List String} {number : Nat} {initial : PathState}
    {m : Option Model} {t : TestMethod} (h : ofPath initialRoots number initial s m = .ok t) :
    ∃ st, Assembled (contextOf initialRoots s m) s s.condition.clauses st ∧
      t.setup = st.statements ∧ ∀ type w, t.result = some (type, .source w) → Asserts s st w := by
  unfold ofPath at h
  obtain ⟨_, -, h⟩ := bind_eq_ok h
  obtain ⟨_, -, h⟩ := bind_eq_ok h
  obtain ⟨expected, -, h⟩ := bind_eq_ok h
  obtain ⟨⟨_, st⟩, hrun, h⟩ := bind_eq_ok h
  have hst := walk_assembled hcoherent hgrounded hrun
  obtain ⟨type, -, h⟩ := bind_eq_ok h
  obtain ⟨result, hresult, h⟩ := bind_eq_ok h
  cases result with
  | none =>
      obtain rfl := Except.ok.inj h
      exact ⟨st, hst, rfl, fun type w hw => by cases hw⟩
  | some v =>
      have hreturned := returned_of_returnedValue hresult
      rw [PathState.ReturnsOwn, hreturned] at hreturns
      cases v with
      | term t =>
          obtain ⟨⟨_, st₁⟩, hbind, h⟩ := bind_eq_ok h
          obtain ⟨⟨assertion, _⟩, hassertion, h⟩ := bind_eq_ok h
          obtain rfl := Except.ok.inj h
          refine ⟨st₁, (bindReturned_assembled hgrounded hst hreturns hbind).1, rfl,
            fun type w hw => ?_⟩
          obtain ⟨-, rfl⟩ := Prod.mk.inj (Option.some.inj hw)
          exact absurd hassertion termAssertion_ne_source
      | ref r =>
          obtain ⟨_, hbind, h⟩ := bind_eq_ok h
          obtain rfl := Except.ok.inj hbind
          obtain ⟨⟨assertion, _⟩, hassertion, h⟩ := bind_eq_ok h
          obtain rfl := Except.ok.inj h
          refine ⟨st, hst, rfl, fun type w hw => ?_⟩
          obtain ⟨-, rfl⟩ := Prod.mk.inj (Option.some.inj hw)
          refine referenceAssertion_asserts hcoherent hgrounded rfl (fun ref href => ?_) hassertion
          rw [href] at hreturns
          exact hreturns

end Methods

section Owners

/-- A variable was declared for a symbol: a primitive one that is bound, or a reference
    at a root that was resolved. -/
inductive Owns (done : List Clause) (st : Setup) : Symbol → Prop where
  | prim {x : PrimSymbol} (hbound : (st.nameOf? x.id).isSome) : Owns done st (.prim x)
  | ref {ref : RefSymbol} {how : Resolution} (hroot : ref.origin.isRoot = true)
    (hclause : .resolve ref how ∈ done) : Owns done st (.ref ref)

theorem local?_writing (o : Origin) (w : Source) : (writing o w).local? = none := by
  unfold writing
  split <;> rfl

theorem locals_give : (st.give x v).statements.filterMap Statement.local?
    = st.statements.filterMap Statement.local? ++ [(x.type.descriptor, variableOf x)] := by
  unfold Setup.give
  rw [List.filterMap_append]
  split
  · rfl
  · have hnone := local?_writing x.origin (.var (variableOf x))
    simp only [List.filterMap_cons, hnone, List.filterMap_nil]
    rfl

theorem locals_settle {w : Source} : (st.settle ref w).statements.filterMap Statement.local?
    = st.statements.filterMap Statement.local? ++
      if ref.origin.isRoot then [(ref.type, rootVariable ref.origin.root)] else [] := by
  unfold Setup.settle
  by_cases hroot : ref.origin.isRoot = true
  · rw [if_pos hroot, if_pos hroot, List.filterMap_append]
    rfl
  · rw [if_neg hroot, if_neg hroot, List.filterMap_append,
      List.filterMap_cons_none (local?_writing _ _)]
    rfl

/-- The symbols that variables were declared for, each once. -/
theorem Assembled.owners (h : Assembled ctx s done st) : ∃ owners : List Symbol, owners.Nodup ∧
    st.statements.filterMap Statement.local? = owners.map (fun y => (y.type, variableName y)) ∧
    ∀ y ∈ owners, y ∈ s.symbols.symbols ∧ Owns done st y := by
  induction h with
  | start => exact ⟨[], List.nodup_nil, rfl, fun y hy => absurd hy List.not_mem_nil⟩
  | @given _ st x v _ hx _ hunbound _ _ ih =>
      obtain ⟨owners, hnodup, hlocals, howns⟩ := ih
      -- The symbol has no variable so far.
      have hnew : Symbol.prim x ∉ owners := by
        intro hmem
        cases (howns _ hmem).2 with
        | prim hbound =>
            rw [hunbound] at hbound
            cases hbound
      refine ⟨owners ++ [.prim x], ?_, ?_, fun y hy => ?_⟩
      · rw [← List.concat_eq_append]
        exact hnodup.concat hnew
      · rw [locals_give, hlocals, List.map_append]
        rfl
      · rcases List.mem_append.1 hy with hold | hnew
        · obtain ⟨hy, howns⟩ := howns y hold
          refine ⟨hy, ?_⟩
          cases howns with
          | prim hbound => exact .prim (bound_give hbound)
          | ref hroot hclause => exact .ref hroot hclause
        · rw [List.mem_singleton.1 hnew]
          refine ⟨hx, .prim ?_⟩
          rw [nameOf?_give_self]
          rfl
  | @settled done st ref how v _ href hnew _ _ _ ih =>
      obtain ⟨owners, hnodup, hlocals, howns⟩ := ih
      have hkept : ∀ y ∈ owners, y ∈ s.symbols.symbols ∧
          Owns (done ++ [.resolve ref how]) (st.settle ref v) y := by
        intro y hy
        obtain ⟨hy, howns⟩ := howns y hy
        refine ⟨hy, ?_⟩
        cases howns with
        | prim hbound => exact .prim (by rw [nameOf?_settle]; exact hbound)
        | ref hroot hclause => exact .ref hroot (List.mem_append_left _ hclause)
      rw [locals_settle, hlocals]
      by_cases hroot : ref.origin.isRoot = true
      · -- The reference was not resolved before, so it has no variable so far.
        have hfresh : Symbol.ref ref ∉ owners := by
          intro hmem
          cases (howns _ hmem).2 with
          | ref _ hclause => exact hnew _ hclause
        refine ⟨owners ++ [.ref ref], ?_, ?_, fun y hy => ?_⟩
        · rw [← List.concat_eq_append]
          exact hnodup.concat hfresh
        · rw [if_pos hroot, List.map_append]
          rfl
        · rcases List.mem_append.1 hy with hold | hlast
          · exact hkept y hold
          · rw [List.mem_singleton.1 hlast]
            exact ⟨href, .ref hroot (List.mem_append_right _ List.mem_cons_self)⟩
      · rw [if_neg hroot, List.append_nil]
        exact ⟨owners, hnodup, rfl, hkept⟩
  | passed _ _ ih =>
      obtain ⟨owners, hnodup, hlocals, howns⟩ := ih
      refine ⟨owners, hnodup, hlocals, fun y hy => ?_⟩
      obtain ⟨hy, howns⟩ := howns y hy
      refine ⟨hy, ?_⟩
      cases howns with
      | prim hbound => exact .prim hbound
      | ref hroot hclause => exact .ref hroot (List.mem_append_left _ hclause)

end Owners

section Names

theorem rootVariable_eq_iff {root root' : String} :
    rootVariable root = rootVariable root' ↔ identifierText root = identifierText root' := by
  simp [rootVariable]

/-- Whether symbols have different variables is a question about roots alone. -/
theorem nodup_variableName_iff (ht : s.symbols.WellFormed) {owners : List Symbol}
    (hnodup : owners.Nodup) (howns : ∀ y ∈ owners, y ∈ s.symbols.symbols ∧ Owns done st y) :
    (owners.map variableName).Nodup ↔ ∀ x ∈ owners, ∀ y ∈ owners, x.origin.isRoot = true →
      y.origin.isRoot = true → identifierText x.origin.root = identifierText y.origin.root →
      x.origin.root = y.origin.root := by
  have hroot : ∀ {y : Symbol}, y.origin.isRoot = true →
      variableName y = rootVariable y.origin.root := by
    intro y hy
    cases y with
    | prim x => exact if_pos hy
    | ref r => rfl
  -- What is nested and has a variable is primitive, and its variable has its number.
  have hnested : ∀ y ∈ owners, y.origin.isRoot = false →
      ∃ x, y = .prim x ∧ variableName y = symbolVariable x := by
    intro y hy hnot
    cases (howns y hy).2 with
    | prim _ => exact ⟨_, rfl, if_neg (Bool.eq_false_iff.1 hnot)⟩
    | ref hisRoot _ => exact absurd (hnot.symm.trans hisRoot) Bool.false_ne_true
  rw [List.nodup_map_iff_inj_on hnodup]
  constructor
  · intro hinj x hx y hy hxroot hyroot htext
    rw [hinj x hx y hy (by rw [hroot hxroot, hroot hyroot]; exact rootVariable_eq_iff.2 htext)]
  · intro hroots x hx y hy hname
    cases hxroot : x.origin.isRoot with
    | true =>
        rw [hroot hxroot] at hname
        cases hyroot : y.origin.isRoot with
        | true =>
            rw [hroot hyroot] at hname
            have hsame := hroots x hx y hy hxroot hyroot (rootVariable_eq_iff.1 hname)
            -- Symbols at one root have the same origin.
            have horigin : x.origin = y.origin := by
              rw [Origin.mk.injEq]
              exact ⟨hsame, (List.isEmpty_iff.1 hxroot).trans (List.isEmpty_iff.1 hyroot).symm⟩
            have hfound := ht.found x (howns x hx).1
            rw [horigin, ht.found y (howns y hy).1] at hfound
            exact (Option.some.inj hfound).symm
        | false =>
            obtain ⟨b, -, hb⟩ := hnested y hy hyroot
            exact absurd (hb.symm.trans hname.symm) (symbolVariable_ne_rootVariable b _)
    | false =>
        obtain ⟨a, rfl, ha⟩ := hnested x hx hxroot
        cases hyroot : y.origin.isRoot with
        | true =>
            rw [ha, hroot hyroot] at hname
            exact absurd hname (symbolVariable_ne_rootVariable a _)
        | false =>
            obtain ⟨b, rfl, hb⟩ := hnested y hy hyroot
            rw [ha, hb] at hname
            exact ht.eq_of_number (howns _ hx).1 (howns _ hy).1 (symbolVariable_inj hname)

/-- Names of variables that differ as identifiers are enough. -/
theorem nodup_variableName (hcoherent : s.Coherent classes) (hgrounded : s.Grounded classes)
    {owners : List Symbol} (hnodup : owners.Nodup)
    (howns : ∀ y ∈ owners, y ∈ s.symbols.symbols ∧ Owns done st y)
    (hnames : ∀ v ∈ s.frame, ∀ w ∈ s.frame, identifierText v.name = identifierText w.name →
      v.name = w.name) : (owners.map variableName).Nodup := by
  refine (nodup_variableName_iff hcoherent.parts.table hnodup howns).2 fun x hx y hy _ _ htext => ?_
  obtain ⟨v, hv, hxname⟩ := (hgrounded.symbols x (howns x hx).1).root_name
  obtain ⟨w, hw, hyname⟩ := (hgrounded.symbols y (howns y hy).1).root_name
  rw [hxname, hyname] at htext ⊢
  exact hnames v hv w hw htext

/-- The name of a variable starts with an underscore or with the letter of nested
    symbols. -/
theorem head_variableName (y : Symbol) : (variableName y).toList.head? = some '_' ∨
    (variableName y).toList.head? = some 'V' := by
  have hroot : ∀ root, (rootVariable root).toList.head? = some '_' := by
    intro root
    rw [rootVariable, String.toList_append]
    rfl
  cases y with
  | ref r => exact .inl (hroot _)
  | prim x =>
      rw [variableName, variableOf]
      by_cases hx : x.origin.isRoot = true
      · rw [if_pos hx]
        exact .inl (hroot _)
      · rw [if_neg hx, symbolVariable, String.toList_append]
        exact .inr rfl

theorem returnedName_ne_variableName (y : Symbol) : variableName y ≠ returnedName := by
  intro h
  have hhead := head_variableName y
  rw [h] at hhead
  exact absurd hhead (by decide)

/-- The conditions and the returned value of a path are about its own symbols. Then the
    variables that a test declares belong to symbols of the path, each to one, with
    the returned value behind them. No variable is declared twice if and only if the
    roots among the symbols have names that differ as identifiers, as they do if the
    names are made of letters, digits and underscores. -/
theorem locals_nodup_iff {signature : Signature} {isStatic : Bool} {parameters : List String}
    {journal : Journal} {u : Session} {initialRoots : List String} {number : Nat}
    {initial : PathState} {m : Option Model} {t : TestMethod}
    (henter : PathState.enter signature isStatic parameters = .ok s)
    (hfollows : Follows (Conduct.ownSymbols classes) ⟨s, journal⟩ u)
    (hreturns : u.state.ReturnsOwn) (htest : ofPath initialRoots number initial u.state m = .ok t) :
    ∃ owners : List Symbol, owners.Nodup ∧ (∀ y ∈ owners, y ∈ u.state.symbols.symbols) ∧
      t.locals = owners.map (fun y => (y.type, variableName y)) ++
        (t.result.map fun r => (r.1, returnedName)).toList ∧
      ((t.locals.map (·.2)).Nodup ↔ ∀ x ∈ owners, ∀ y ∈ owners, x.origin.isRoot = true →
        y.origin.isRoot = true → identifierText x.origin.root = identifierText y.origin.root →
        x.origin.root = y.origin.root) ∧
      ((∀ v ∈ u.state.frame, identifierText v.name = v.name) → (t.locals.map (·.2)).Nodup) := by
  obtain ⟨hcoherent, hgrounded⟩ := grounded_of_follows henter hfollows
  obtain ⟨st, hst, hsetup, -⟩ := ofPath_assembled hcoherent hgrounded hreturns htest
  obtain ⟨owners, hnodup, hlocals, howns⟩ := hst.owners
  have hall : t.locals = owners.map (fun y => (y.type, variableName y)) ++
      (t.result.map fun r => (r.1, returnedName)).toList := by
    rw [TestMethod.locals, hsetup, hlocals]
  have hnames : t.locals.map (·.2) = owners.map variableName ++
      (t.result.map fun _ => returnedName).toList := by
    rw [hall, List.map_append, List.map_map]
    cases t.result <;> rfl
  have hiff := nodup_variableName_iff hcoherent.parts.table hnodup howns
  -- The variable for the returned value is none of the others.
  have hwith : (t.locals.map (·.2)).Nodup ↔ (owners.map variableName).Nodup := by
    rw [hnames, List.nodup_append]
    refine ⟨fun h => h.1, fun h => ⟨h, ?_, fun a ha b hb hab => ?_⟩⟩
    · cases t.result with
      | none => exact List.nodup_nil
      | some r => exact List.nodup_singleton _
    · obtain ⟨y, -, rfl⟩ := List.mem_map.1 ha
      cases hresult : t.result with
      | none =>
          rw [hresult] at hb
          exact absurd hb List.not_mem_nil
      | some r =>
          rw [hresult] at hb
          exact returnedName_ne_variableName y (hab.trans (List.mem_singleton.1 hb))
  refine ⟨owners, hnodup, fun y hy => (howns y hy).1, hall, hwith.trans hiff, fun hplain => ?_⟩
  refine hwith.2 (nodup_variableName hcoherent hgrounded hnodup howns fun v hv w hw htext => ?_)
  rwa [hplain v hv, hplain w hw] at htext

/-- Two nodes, an array with an element, and variables for all of them. -/
theorem locals_nodup_iff_sought :
    PathState.enter searchMethod true ["list", "keys"] = .ok searchEntry ∧
      Follows (Conduct.ownSymbols nodeClasses) ⟨searchEntry, []⟩ soughtSession ∧
      soughtSession.state.ReturnsOwn ∧
      ∃ t, ofPath [] 0 searchEntry soughtSession.state (some soughtModel) = .ok t ∧
        (t.locals.map (·.2)).Nodup := by
  have hok : (ofPath [] 0 searchEntry soughtSession.state (some soughtModel)).isOk = true := by
    decide +kernel
  cases htest : ofPath [] 0 searchEntry soughtSession.state (some soughtModel) with
  | error e =>
      rw [htest] at hok
      cases hok
  | ok t =>
      obtain ⟨owners, -, -, -, -, hplain⟩ :=
        locals_nodup_iff enter_search soughtSession_follows trivial htest
      exact ⟨enter_search, soughtSession_follows, trivial, t, rfl, hplain (by decide +kernel)⟩

/-- A method that is given two lists. -/
def joinMethod : Signature := ⟨"Search", "(LNode;LNode;)V", "join"⟩

/-- The state at the entry of the method. The variables have different names. -/
def joinEntry : PathState where
  signature := joinMethod
  isStatic := true
  frame := [⟨0, "a$", "LNode;", .ref ⟨0, "LNode;", .ofRoot "a$"⟩⟩,
    ⟨1, "a_", "LNode;", .ref ⟨1, "LNode;", .ofRoot "a_"⟩⟩]
  symbols := ⟨[.ref ⟨0, "LNode;", .ofRoot "a$"⟩, .ref ⟨1, "LNode;", .ofRoot "a_"⟩]⟩

/-- Both lists are empty. -/
def joinedSession : Session :=
  let u := ((nodeEnvironment.resolve ⟨0, "LNode;", .ofRoot "a$"⟩ .null).runOn ⟨joinEntry, []⟩).2
  ((nodeEnvironment.resolve ⟨1, "LNode;", .ofRoot "a_"⟩ .null).runOn u).2

theorem enter_join : PathState.enter joinMethod true ["a$", "a_"] = .ok joinEntry := by
  have hparameters : Descriptor.parameters joinMethod.descriptor
      = .ok [.typed "LNode;", .typed "LNode;"] := by cbv
  have hresult : Descriptor.result joinMethod.descriptor = .ok "V" := by cbv
  rw [PathState.enter, hparameters, hresult]
  rfl

theorem joinedSession_follows :
    Follows (Conduct.ownSymbols nodeClasses) ⟨joinEntry, []⟩ joinedSession := by
  refine .resolve_node _ _ (.resolve_node _ _ (.refl _) ?_) ?_
  all_goals decide +kernel

/-- One variable is declared for two roots. -/
theorem variable_declared_twice :
    PathState.enter joinMethod true ["a$", "a_"] = .ok joinEntry ∧
      Follows (Conduct.ownSymbols nodeClasses) ⟨joinEntry, []⟩ joinedSession ∧
      joinedSession.state.ReturnsOwn ∧
      ∃ t, ofPath [] 0 joinEntry joinedSession.state none = .ok t ∧
        t.locals = [("LNode;", "__a_"), ("LNode;", "__a_")] ∧ ¬ (t.locals.map (·.2)).Nodup :=
  ⟨enter_join, joinedSession_follows, trivial, _, rfl, by decide +kernel, by decide +kernel⟩

end Names

end TestCase

end PathWitness
