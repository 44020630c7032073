import PathWitness.Proofs.TestCase.Realises
import PathWitness.TestCase.Case

/-!
# How the Statements of a Test Are Put Together

The statements of a test are made clause by clause, with many ways to fail on the
way. None of the failures that would be a mistake in the path can happen: an array
stands right before the condition on its length, an alias stands behind the
expansion that it points to, and a symbol that is stored through the variable of
its root comes after the clause that gave the root a variable.

What is left is one of three obstacles: a condition whose symbols cannot be listed,
a symbol without a value, and an alias of something that was there before the path
began. `Assembled` says how the statements come about otherwise: a symbol gets its
value, a reference gets its object, or a clause is passed over. All that can be said
about the statements of every test follows by induction on it.

A path may have clauses about things that were there before it began, and these are
passed over. It matters then that the length of an array starts where the array
starts (`Context.Steady`). Only names with dots in them can make it otherwise.

## Main definitions

* `Setup.give`, `Setup.settle`: A symbol gets its value, and a reference its object.
* `Assembled`: How statements come about.
* `Obstacle`: What keeps statements from coming about.
* `Assembles`: A computation adds statements, or there is an obstacle.

## Theorems

* `Assembled.root_mem`, `Assembled.declared`: The roots that have variables.
* `bindSymbol_assembles`, `expandArray_assembles`, `makeAlias_assembles`: The steps of
  a walk.
* `walk_assembles`, `walk_path_assembles`: The statements for all clauses.
* `Assembled.unobstructed`: Statements come about only if there is no obstacle.
-/

namespace PathWitness

namespace TestCase

open Setup

/-- The variable of the root is there, and the steps can be written. -/
def Setup.Addresses (st : Setup) (o : Origin) : Prop :=
  o.root ∈ st.roots ∧ o.Walkable

/-- A symbol gets a variable with its value, which is stored where the symbol is. -/
def Setup.give (st : Setup) (x : PrimSymbol) (v : Const) : Setup where
  statements := st.statements ++ .declare x.type.descriptor (variableOf x) (.literal x.type v) ::
    if x.origin.isRoot || x.origin.last? == some .length then []
    else [writing x.origin (.var (variableOf x))]
  bindings := (x.id, variableOf x) :: st.bindings
  roots := if x.origin.isRoot then x.origin.root :: st.roots else st.roots

/-- A value is put where a reference is. -/
def Setup.settle (st : Setup) (ref : RefSymbol) (v : Source) : Setup :=
  if ref.origin.isRoot then
    ⟨st.statements ++ [.declare ref.type (rootVariable ref.origin.root) v],
      (ref.id, rootVariable ref.origin.root) :: st.bindings, ref.origin.root :: st.roots⟩
  else { st with statements := st.statements ++ [writing ref.origin v] }

/-- The expression for an alias of what a reference was expanded to. -/
def aliasing (ref target : RefSymbol) : Source :=
  match reading target.origin ref.type with
  | .chain type name steps => .chain type name steps
  | v => if target.type = ref.type then v else .cast ref.type v

/-- The length of an array starts where the array starts. -/
def Setup.Context.Steady (ctx : Context) (s : PathState) : Prop :=
  ∀ ref n, .ref ref ∈ s.symbols.symbols →
    s.symbols.find? (ref.origin.push .length) = some (.prim n) →
    ctx.isInitial n.origin = ctx.isInitial ref.origin

/-- The value that a reference gets for its resolution. -/
inductive Provides (done : List Clause) (st : Setup) (ref : RefSymbol) : Resolution → Source → Prop
    where
  | null : Provides done st ref .null .null
  | object (p : Int) (type : String) : Provides done st ref (.fresh p type) (.newObject type)
  | array (p : Int) (type length : String) :
    Provides done st ref (.fresh p type) (.newArray type length)
  | same {p : Int} {target : RefSymbol} {type : String}
    (htarget : .resolve target (.fresh p type) ∈ done) (haddress : st.Addresses target.origin) :
    Provides done st ref (.aliasOf p) (aliasing ref target)

/-- A clause for which no statement is made. A condition has values for its symbols by
    now, unless one of them was there before the path began. -/
def Passes (ctx : Context) (s : PathState) : Clause → Prop
  | .initialized _ => True
  | .assume c => ctx.Steady s → (∀ x ∈ c.symbols, ctx.isInitial x.origin = false) →
      ∀ x ∈ c.symbols, (ctx.model.get? x.number).isSome
  | .resolve ref _ => ctx.isInitial ref.origin = true

/-- How the statements for clauses come about. -/
inductive Assembled (ctx : Context) (s : PathState) : List Clause → Setup → Prop where
  | start : Assembled ctx s [] {}
  | given {done : List Clause} {st : Setup} {x : PrimSymbol} {v : Const}
    (h : Assembled ctx s done st) (hx : .prim x ∈ s.symbols.symbols)
    (hinitial : ctx.Steady s → ctx.isInitial x.origin = false)
    (hunbound : st.nameOf? x.id = none) (hv : ctx.model.get? x.number = some v)
    (haddress : x.origin.isRoot = true ∨ x.origin.last? = some .length ∨ st.Addresses x.origin) :
    Assembled ctx s done (st.give x v)
  | settled {done : List Clause} {st : Setup} {ref : RefSymbol} {how : Resolution} {v : Source}
    (h : Assembled ctx s done st) (href : .ref ref ∈ s.symbols.symbols)
    (hnew : ∀ how', .resolve ref how' ∉ done) (hinitial : ctx.isInitial ref.origin = false)
    (hprovides : Provides done st ref how v)
    (haddress : ref.origin.isRoot = true ∨ st.Addresses ref.origin) :
    Assembled ctx s (done ++ [.resolve ref how]) (st.settle ref v)
  | passed {done : List Clause} {st : Setup} {c : Clause} (h : Assembled ctx s done st)
    (hc : Passes ctx s c) : Assembled ctx s (done ++ [c]) st

/-- What keeps the statements for clauses from coming about, with the error that is
    told. -/
inductive Obstacle (ctx : Context) (clauses : List Clause) : CaseError → Prop where
  /-- A condition about what the path has created has a symbol without a value. -/
  | noValue {c : Term} {x : PrimSymbol} (hc : .assume c ∈ clauses)
    (hinitial : ∀ y ∈ c.symbols, ctx.isInitial y.origin = false)
    (hx : x ∈ c.symbols) (hv : ctx.model.get? x.number = none) :
    Obstacle ctx clauses (.skip .noSolution)
  /-- An alias points to something that was there before the path began. -/
  | outside {ref target : RefSymbol} {p : Int} {type : String}
    (hc : .resolve ref (.aliasOf p) ∈ clauses) (hinitial : ctx.isInitial ref.origin = false)
    (htarget : .resolve target (.fresh p type) ∈ clauses)
    (houtside : ctx.isInitial target.origin = true) :
    Obstacle ctx clauses (.skip (.noVariable target.origin))

/-- A computation succeeds with a certain result, or there is an obstacle. -/
def Assembles (ctx : Context) (s : PathState) (step : SetupM Unit) (st : Setup)
    (result : Setup → Prop) : Prop :=
  (∃ st', step.run st = .ok ((), st') ∧ result st') ∨
    ∃ e, step.run st = .error e ∧ (ctx.Steady s → Obstacle ctx s.condition.clauses e)

variable {classes : ClassTable} {ctx : Context} {s : PathState} {done rest : List Clause}
  {st : Setup} {x : PrimSymbol} {v : Const} {ref : RefSymbol}

section Running

/-- Giving a symbol its value adds the statements for it. -/
theorem declarePrimitive_eq (ctx : Context) (v : Const)
    (h : x.origin.isRoot = true ∨ x.origin.last? = some .length ∨ st.Addresses x.origin) :
    (declarePrimitive ctx x v).run st = .ok ((), st.give x v) := by
  rw [declarePrimitive_run]
  unfold Setup.give
  by_cases hroot : x.origin.isRoot = true
  · simp only [hroot, if_true, Bool.true_or]
    rfl
  · by_cases hlast : x.origin.last? = some .length
    · simp only [hroot, hlast, Bool.false_eq_true, if_false, bne_self_eq_false, beq_self_eq_true,
        Bool.or_true, if_true]
      rfl
    · obtain ⟨hmem, hwalk⟩ := (h.resolve_left hroot).resolve_left hlast
      have hne : (x.origin.last? == some .length) = false := beq_eq_false_iff_ne.2 hlast
      simp only [hroot, hne, bne, Bool.not_false, Bool.false_eq_true, if_false, if_true,
        Bool.or_false]
      refine (assign_eq ctx ⟨st.statements ++ [.declare x.type.descriptor (variableOf x)
        (.literal x.type v)], (x.id, variableOf x) :: st.bindings, st.roots⟩ hmem hwalk _).trans ?_
      rw [List.append_assoc]
      rfl

theorem setReference_eq (ctx : Context) (v : Source)
    (h : ref.origin.isRoot = true ∨ st.Addresses ref.origin) :
    (setReference ctx ref v).run st = .ok ((), st.settle ref v) := by
  unfold setReference Setup.settle
  by_cases hroot : ref.origin.isRoot = true
  · rw [if_pos hroot, if_pos hroot]
    rfl
  · obtain ⟨hmem, hwalk⟩ := h.resolve_left hroot
    rw [if_neg hroot, if_neg hroot]
    exact assign_eq ctx st hmem hwalk v

theorem Assembles.bind {step : SetupM Unit} {next : Unit → SetupM Unit}
    {result result' : Setup → Prop} (h : Assembles ctx s step st result)
    (hnext : ∀ st', result st' → Assembles ctx s (next ()) st' result') :
    Assembles ctx s (step >>= next) st result' := by
  rcases h with ⟨st', hrun, hst'⟩ | ⟨e, hrun, hobstacle⟩
  · have hthen : (step >>= next).run st = (next ()).run st' := by
      rw [StateT.run_bind, hrun]
      rfl
    unfold Assembles
    rw [hthen]
    exact hnext st' hst'
  · exact .inr ⟨e, by rw [StateT.run_bind, hrun]; rfl, hobstacle⟩

theorem Assembles.ok {step : SetupM Unit} {result : Setup → Prop} {st' : Setup}
    (hrun : step.run st = .ok ((), st')) (h : result st') : Assembles ctx s step st result :=
  .inl ⟨st', hrun, h⟩

theorem Assembles.imp {step : SetupM Unit} {result result' : Setup → Prop}
    (h : Assembles ctx s step st result) (himp : ∀ st', result st' → result' st') :
    Assembles ctx s step st result' := by
  rcases h with ⟨st', hrun, hst'⟩ | herror
  · exact .inl ⟨st', hrun, himp st' hst'⟩
  · exact .inr herror

end Running

section Roots

theorem mem_roots_give {root : String} : root ∈ (st.give x v).roots ↔
    (x.origin.isRoot = true ∧ root = x.origin.root) ∨ root ∈ st.roots := by
  by_cases hx : x.origin.isRoot = true
  · simp [Setup.give, hx]
  · simp [Setup.give, hx]

theorem mem_roots_settle {root : String} {w : Source} : root ∈ (st.settle ref w).roots ↔
    (ref.origin.isRoot = true ∧ root = ref.origin.root) ∨ root ∈ st.roots := by
  by_cases href : ref.origin.isRoot = true
  · simp [Setup.settle, href]
  · simp [Setup.settle, href]

theorem statements_give : st.statements ⊆ (st.give x v).statements :=
  List.subset_append_left _ _

theorem statements_settle {w : Source} : st.statements ⊆ (st.settle ref w).statements := by
  unfold Setup.settle
  split
  · exact List.subset_append_left _ _
  · exact List.subset_append_left _ _

/-- A root that was resolved has a variable, unless it was there before the path
    began. -/
theorem Assembled.root_mem (h : Assembled ctx s done st) {how : Resolution}
    (hclause : .resolve ref how ∈ done) (hroot : ref.origin.isRoot = true)
    (hinitial : ctx.isInitial ref.origin = false) : ref.origin.root ∈ st.roots := by
  induction h with
  | start => exact absurd hclause List.not_mem_nil
  | given _ _ _ _ _ _ ih => exact mem_roots_give.2 (.inr (ih hclause))
  | settled _ _ _ _ _ _ ih =>
      rcases List.mem_append.1 hclause with hold | hnew
      · exact mem_roots_settle.2 (.inr (ih hold))
      · obtain ⟨rfl, -⟩ := Clause.resolve.inj (List.mem_singleton.1 hnew)
        exact mem_roots_settle.2 (.inl ⟨hroot, rfl⟩)
  | passed _ hc ih =>
      rcases List.mem_append.1 hclause with hold | hnew
      · exact ih hold
      · rw [← List.mem_singleton.1 hnew] at hc
        exact absurd (hinitial.symm.trans hc) Bool.false_ne_true

/-- A root has a variable that was declared for the symbol at the root, which was not
    there before the path began. -/
def RootDeclared (ctx : Context) (s : PathState) (statements : List Statement) (root : String) :
    Prop :=
  ∃ y ∈ s.symbols.symbols, y.origin = .ofRoot root ∧
    (ctx.Steady s → ctx.isInitial y.origin = false) ∧
    ∃ v, .declare y.type (rootVariable root) v ∈ statements

theorem RootDeclared.mono {statements statements' : List Statement} {root : String}
    (hsub : statements ⊆ statements') (h : RootDeclared ctx s statements root) :
    RootDeclared ctx s statements' root := by
  obtain ⟨y, hy, horigin, hinitial, v, hv⟩ := h
  exact ⟨y, hy, horigin, hinitial, v, hsub hv⟩

/-- The roots that have variables are declared. -/
theorem Assembled.declared (h : Assembled ctx s done st) {root : String} (hroot : root ∈ st.roots) :
    RootDeclared ctx s st.statements root := by
  have hofRoot : ∀ {o : Origin}, o.isRoot = true → o = .ofRoot o.root := by
    intro o ho
    rw [Origin.ofRoot, Origin.mk.injEq]
    exact ⟨rfl, List.isEmpty_iff.1 ho⟩
  induction h with
  | start => exact absurd hroot List.not_mem_nil
  | @given _ st x v _ hx hinitial _ _ _ ih =>
      rcases mem_roots_give.1 hroot with ⟨hx', rfl⟩ | hold
      · refine ⟨_, hx, hofRoot hx', hinitial, .literal x.type v, ?_⟩
        have hname : variableOf x = rootVariable x.origin.root := if_pos hx'
        rw [← hname]
        exact List.mem_append_right _ List.mem_cons_self
      · exact (ih hold).mono statements_give
  | @settled done st ref how v _ href _ hinitial _ _ ih =>
      rcases mem_roots_settle.1 hroot with ⟨href', rfl⟩ | hold
      · refine ⟨_, href, hofRoot href', fun _ => hinitial, v, ?_⟩
        rw [Setup.settle, if_pos href']
        exact List.mem_append_right _ List.mem_cons_self
      · exact (ih hold).mono statements_settle
  | passed _ _ ih => exact ih hroot

theorem nameOf?_settle {w : Source} : (st.settle ref w).nameOf? x.id = st.nameOf? x.id := by
  unfold Setup.settle
  split
  · simp only [Setup.nameOf?, List.lookup_cons, beq_eq_false_iff_ne.2 (id_ne_refId x ref)]
  · rfl

/-- A symbol with a variable has a value. -/
theorem Assembled.valued (h : Assembled ctx s done st) (hbound : (st.nameOf? x.id).isSome) :
    (ctx.model.get? x.number).isSome := by
  induction h with
  | start => cases hbound
  | @given _ st y v _ _ _ _ hv _ ih =>
      by_cases hid : x.id = y.id
      · rw [id_inj hid, hv]
        rfl
      · refine ih ?_
        have hother : (st.give y v).nameOf? x.id = st.nameOf? x.id := by
          simp only [Setup.nameOf?, Setup.give, List.lookup_cons, beq_eq_false_iff_ne.2 hid]
        rwa [hother] at hbound
  | settled _ _ _ _ _ _ ih =>
      rw [nameOf?_settle] at hbound
      exact ih hbound
  | passed _ _ ih => exact ih hbound

/-- What hangs on the clauses so far can be stored and read, unless it was there before
    the path began. -/
theorem Assembled.addresses (h : Assembled ctx s done st)
    (hdone : ∀ c ∈ done, c ∈ s.condition.clauses) {y : Symbol}
    (hy : Anchored classes s.frame done y) (hinitial : ctx.isInitial y.origin = false) :
    y.origin.isRoot = true ∨ (y.origin.last? = some .length ∧ ∃ n, y = .prim n) ∨
      st.Addresses y.origin := by
  by_cases hroot : y.origin.isRoot = true
  · exact .inl hroot
  · rcases hy.addressed hdone with ⟨hwalk, -⟩ | hlength
    · obtain ⟨r, p, type, hclause, horigin⟩ :=
        hy.root_expanded fun hsteps => hroot (List.isEmpty_iff.2 hsteps)
      have hmem := h.root_mem hclause (by rw [horigin]; rfl)
        (by rw [Context.isInitial, horigin]; exact hinitial)
      rw [horigin] at hmem
      exact .inr (.inr ⟨hmem, hwalk⟩)
    · exact .inr (.inl hlength)

end Roots

section Steps

/-- A symbol gets a variable, if it has none. -/
theorem bindSymbol_assembles (h : Assembled ctx s done st) (hx : .prim x ∈ s.symbols.symbols)
    (hinitial : ctx.Steady s → ctx.isInitial x.origin = false)
    (hwalk : x.origin.isRoot = true ∨ x.origin.last? = some .length ∨ x.origin.Walkable)
    (haddress : ctx.Steady s → x.origin.isRoot = true ∨ x.origin.last? = some .length ∨
      st.Addresses x.origin)
    (hmissing : ctx.Steady s → ctx.model.get? x.number = none →
      Obstacle ctx s.condition.clauses (.skip .noSolution)) :
    Assembles ctx s (bindSymbol ctx x) st fun st' =>
      Assembled ctx s done st' ∧ (ctx.model.get? x.number).isSome := by
  unfold bindSymbol Assembles
  rw [run_get_bind]
  by_cases hbound : (st.nameOf? x.id).isSome = true
  · rw [if_pos hbound]
    exact .inl ⟨st, rfl, h, h.valued hbound⟩
  · rw [if_neg hbound]
    cases hv : ctx.model.get? x.number with
    | none => exact .inr ⟨_, rfl, fun hsteady => hmissing hsteady hv⟩
    | some v =>
        have hunbound : st.nameOf? x.id = none := by simpa using hbound
        by_cases hhere : x.origin.isRoot = true ∨ x.origin.last? = some .length ∨
            st.Addresses x.origin
        · exact .inl ⟨_, declarePrimitive_eq ctx v hhere,
            .given h hx hinitial hunbound hv hhere, rfl⟩
        · -- Only the root can be missing, and then the path is not steady.
          obtain ⟨hroot, hlast, haway⟩ : ¬ x.origin.isRoot = true ∧ x.origin.last? ≠ some .length ∧
              ¬ st.Addresses x.origin := by simpa only [not_or] using hhere
          have hmem : x.origin.root ∉ st.roots := fun hmem =>
            haway ⟨hmem, (hwalk.resolve_left hroot).resolve_left hlast⟩
          refine .inr ⟨.noRootVariable x.origin, ?_, fun hsteady => absurd (haddress hsteady) hhere⟩
          change (declarePrimitive ctx x v).run st = _
          rw [declarePrimitive_run, if_neg hroot, if_pos (bne_iff_ne.2 hlast)]
          refine assign_unrooted ctx ?_ _
          exact hmem

/-- The symbols of a list get variables. -/
theorem bindSymbols_assembles (h : Assembled ctx s done st)
    (hdone : ∀ c ∈ done, c ∈ s.condition.clauses) (xs : List PrimSymbol)
    (hxs : ∀ x ∈ xs, .prim x ∈ s.symbols.symbols ∧ Anchored classes s.frame done (.prim x) ∧
      ctx.isInitial x.origin = false ∧ (ctx.model.get? x.number = none →
        Obstacle ctx s.condition.clauses (.skip .noSolution))) :
    Assembles ctx s (xs.forM (bindSymbol ctx)) st fun st' =>
      Assembled ctx s done st' ∧ ∀ x ∈ xs, (ctx.model.get? x.number).isSome := by
  induction xs generalizing st with
  | nil => exact .ok rfl ⟨h, fun x hx => absurd hx List.not_mem_nil⟩
  | cons x xs ih =>
      obtain ⟨hx, hanchored, hinitial, hmissing⟩ := hxs x List.mem_cons_self
      have haddress := (h.addresses hdone hanchored hinitial).imp_right (Or.imp_left And.left)
      have hfirst := bindSymbol_assembles h hx (fun _ => hinitial)
        (haddress.imp_right (Or.imp_right And.right)) (fun _ => haddress) fun _ => hmissing
      refine hfirst.bind fun st' hst' => ?_
      refine (ih hst'.1 fun y hy => hxs y (List.mem_cons_of_mem x hy)).imp fun st'' hst'' => ?_
      refine ⟨hst''.1, fun y hy => ?_⟩
      rcases List.mem_cons.1 hy with rfl | hy
      · exact hst'.2
      · exact hst''.2 y hy

/-- The symbols of a condition get variables. -/
theorem bindCondition_assembles (hgrounded : s.Grounded classes) {c : Term}
    (hclauses : s.condition.clauses = done ++ .assume c :: rest) (h : Assembled ctx s done st) :
    Assembles ctx s (bindCondition ctx c) st (Assembled ctx s (done ++ [.assume c])) := by
  have hc : .assume c ∈ s.condition.clauses := by
    rw [hclauses]
    exact List.mem_append_right _ List.mem_cons_self
  unfold bindCondition
  by_cases hany : c.symbols.any (fun x => ctx.isInitial x.origin) = true
  · rw [if_pos hany]
    refine .ok rfl (h.passed fun _ hinitial => ?_)
    obtain ⟨x, hx, htrue⟩ := List.any_eq_true.1 hany
    exact absurd ((hinitial x hx).symm.trans htrue) Bool.false_ne_true
  · rw [if_neg hany]
    have hinitial : ∀ x ∈ c.symbols, ctx.isInitial x.origin = false := by
      intro x hx
      by_contra htrue
      exact hany (List.any_eq_true.2 ⟨x, hx, Bool.not_eq_false _ ▸ htrue⟩)
    have hsymbols : ∀ x ∈ c.symbols, .prim x ∈ s.symbols.symbols ∧
        Anchored classes s.frame done (.prim x) := fun x hx =>
      hgrounded.clauses done _ rest hclauses _ (.occurs (mem_of_mem_firstOccurrences hx))
    exact (bindSymbols_assembles h (subset_of_split hclauses) c.symbols fun x hx =>
      ⟨(hsymbols x hx).1, (hsymbols x hx).2, hinitial x hx, .noValue hc hinitial hx⟩).imp
      fun st' hst' => hst'.1.passed fun _ _ => hst'.2

/-- A reference gets its object. -/
theorem setReference_assembles (hcoherent : s.Coherent classes) (hgrounded : s.Grounded classes)
    {how : Resolution} {v : Source}
    (hclauses : s.condition.clauses = done ++ .resolve ref how :: rest)
    (h : Assembled ctx s done st) (hinitial : ctx.isInitial ref.origin = false)
    (hprovides : Provides done st ref how v) :
    Assembles ctx s (setReference ctx ref v) st (Assembled ctx s (done ++ [.resolve ref how])) := by
  obtain ⟨href, hanchored⟩ := hgrounded.clauses done _ rest hclauses _ (.resolved ref how)
  have haddress : ref.origin.isRoot = true ∨ st.Addresses ref.origin := by
    rcases h.addresses (subset_of_split hclauses) hanchored hinitial with
      hroot | ⟨-, n, hn⟩ | haddress
    · exact .inl hroot
    · cases hn
    · exact .inr haddress
  exact .ok (setReference_eq ctx v haddress)
    (h.settled href (unresolved_before hcoherent hclauses) hinitial hprovides haddress)

/-- An array gets its length and is created. -/
theorem expandArray_assembles (hcoherent : s.Coherent classes) (hgrounded : s.Grounded classes)
    {p : Int} {type : String} {n : PrimSymbol}
    (hclauses : s.condition.clauses
      = done ++ .resolve ref (.fresh p type) :: .assume (lengthCondition n) :: rest)
    (hmeasures : Measures classes s.frame s.symbols done ref n) (h : Assembled ctx s done st)
    (hinitial : ctx.isInitial ref.origin = false) :
    Assembles ctx s (expandArray ctx ref type (lengthCondition n)) st
      (Assembled ctx s (done ++ [.resolve ref (.fresh p type), .assume (lengthCondition n)])) := by
  have hdone := subset_of_split hclauses
  have hassume : .assume (lengthCondition n) ∈ s.condition.clauses := by
    rw [hclauses]
    exact List.mem_append_right _ (List.mem_cons_of_mem _ List.mem_cons_self)
  have href := (hgrounded.clauses done _ _ hclauses _ (.resolved ref _)).1
  have hstarts : ctx.Steady s → ctx.isInitial n.origin = false := fun hsteady =>
    (hsteady ref n href hmeasures.found).trans hinitial
  have hlast : n.origin = ref.origin.push .length → n.origin.last? = some .length := by
    intro horigin
    rw [horigin, Origin.last?_push]
  have hsymbol := bindSymbol_assembles h (SymbolTable.mem_of_find? hmeasures.found) hstarts
    (by
      rcases hmeasures.origin with horigin | hanchored
      · exact .inr (.inl (hlast horigin))
      · exact .inr ((hanchored.addressed hdone).symm.imp And.left And.left))
    (fun hsteady => by
      rcases hmeasures.origin with horigin | hanchored
      · exact .inr (.inl (hlast horigin))
      · exact (h.addresses hdone hanchored (hstarts hsteady)).imp_right (Or.imp_left And.left))
    fun hsteady hv => .noValue (c := lengthCondition n) hassume
      (fun y hy => by rw [List.mem_singleton.1 hy]; exact hstarts hsteady)
      List.mem_cons_self hv
  unfold expandArray
  change Assembles ctx s (bindSymbol ctx n >>= fun _ => get >>= fun st =>
    setReference ctx ref (.newArray type ((st.nameOf? n.id).getD ""))) st _
  refine hsymbol.bind fun st' hst' => ?_
  have hboth := (setReference_assembles hcoherent hgrounded hclauses hst'.1 hinitial
    (.array p type ((st'.nameOf? n.id).getD ""))).imp fun st'' hst'' =>
      hst''.passed (c := .assume (lengthCondition n)) fun _ _ x hx => by
        rw [List.mem_singleton.1 hx]
        exact hst'.2
  rw [List.append_assoc] at hboth
  exact hboth

/-- An alias gets the object that another reference was expanded to. -/
theorem makeAlias_assembles (hcoherent : s.Coherent classes) (hgrounded : s.Grounded classes)
    (hctx : ctx.condition = s.condition) {p : Int}
    (hclauses : s.condition.clauses = done ++ .resolve ref (.aliasOf p) :: rest)
    (h : Assembled ctx s done st) (hinitial : ctx.isInitial ref.origin = false) :
    Assembles ctx s (makeAlias ctx ref p) st
      (Assembled ctx s (done ++ [.resolve ref (.aliasOf p)])) := by
  have hdone := subset_of_split hclauses
  obtain ⟨target, type, hclause⟩ := expanded_before hcoherent hclauses
  have hanchored : Anchored classes s.frame done (.ref target) :=
    hgrounded.clauses.anchored hclauses hclause (.resolved target _)
  have hwalk : target.origin.Walkable := by
    rcases hanchored.addressed hdone with ⟨hwalk, -⟩ | ⟨-, n, hn⟩
    · exact hwalk
    · cases hn
  unfold makeAlias
  rw [hctx, hcoherent.parts.condition.expansion?_eq (hdone _ hclause)]
  by_cases hroot : target.origin.root ∈ st.roots
  · have hset := setReference_assembles hcoherent hgrounded hclauses h hinitial
      (.same hclause ⟨hroot, hwalk⟩)
    unfold Assembles aliasing at hset
    unfold Assembles
    simp only [StateT.run_bind, readOrigin_eq ctx hroot hwalk ref.type]
    cases hread : reading target.origin ref.type
    all_goals
      rw [hread] at hset
      exact hset
  · -- The root has no variable because it was there before the path began.
    have houtside : ctx.isInitial target.origin = true := by
      by_contra hinside
      have hinside' : ctx.isInitial target.origin = false := Bool.not_eq_true _ ▸ hinside
      rcases h.addresses hdone hanchored hinside' with hisRoot | ⟨-, n, hn⟩ | haddress
      · exact hroot (h.root_mem hclause hisRoot hinside')
      · cases hn
      · exact hroot haddress.1
    refine .inr ⟨.skip (.noVariable target.origin), ?_, fun _ => .outside
      (by rw [hclauses]; exact List.mem_append_right _ List.mem_cons_self) hinitial
      (hdone _ hclause) houtside⟩
    simp only [StateT.run_bind, readOrigin_unrooted ctx hroot ref.type]
    rfl

/-- The statements for the rest of the clauses. -/
theorem walk_assembles (hcoherent : s.Coherent classes) (hgrounded : s.Grounded classes)
    (hctx : ctx.condition = s.condition) (hclauses : s.condition.clauses = done ++ rest)
    (h : Assembled ctx s done st) :
    Assembles ctx s (walk ctx rest) st (Assembled ctx s s.condition.clauses) := by
  induction hlength : rest.length using Nat.strongRecOn generalizing rest done st with
  | ind length ih =>
      -- The clauses that one step takes care of are put behind those that are done.
      have hstep : ∀ (added left : List Clause) (step : SetupM Unit), rest = added ++ left →
          left.length < length → Assembles ctx s step st (Assembled ctx s (done ++ added)) →
          Assembles ctx s (step >>= fun _ => walk ctx left) st
            (Assembled ctx s s.condition.clauses) := by
        intro added left step hrest hless hst
        exact hst.bind fun st' hst' => ih left.length hless
          (by rw [hclauses, hrest, List.append_assoc]) hst' rfl
      -- What is about things that were there before is passed over.
      have hchoice : ∀ (ref : RefSymbol) (added left : List Clause) (step : SetupM Unit),
          rest = added ++ left → left.length < length →
          (ctx.isInitial ref.origin = true → Assembled ctx s (done ++ added) st) →
          (ctx.isInitial ref.origin = false →
            Assembles ctx s step st (Assembled ctx s (done ++ added))) →
          Assembles ctx s
            (if (!ctx.isInitial ref.origin) = true then step >>= fun _ => walk ctx left
            else walk ctx left) st (Assembled ctx s s.condition.clauses) := by
        intro ref added left step hrest hless hpassed hst
        by_cases hinitial : ctx.isInitial ref.origin = true
        · rw [if_neg (by rw [hinitial]; decide)]
          exact hstep added left (pure ()) hrest hless (.ok rfl (hpassed hinitial))
        · have hinitial' : ctx.isInitial ref.origin = false := Bool.not_eq_true _ ▸ hinitial
          rw [if_pos (by rw [hinitial']; decide)]
          exact hstep added left step hrest hless (hst hinitial')
      cases rest with
      | nil =>
          rw [List.append_nil] at hclauses
          exact .ok rfl (hclauses ▸ h)
      | cons c rest =>
          have hless : rest.length < length := by
            rw [← hlength, List.length_cons]
            omega
          cases c with
          | initialized name =>
              exact hstep [.initialized name] rest (pure ()) rfl hless
                (.ok rfl (h.passed trivial))
          | assume c =>
              exact hstep [.assume c] rest (bindCondition ctx c) rfl hless
                (bindCondition_assembles hgrounded hclauses h)
          | resolve ref how =>
              cases how with
              | null =>
                  exact hchoice ref [.resolve ref .null] rest _ rfl hless (fun hinitial =>
                    h.passed hinitial) fun hinitial =>
                    setReference_assembles hcoherent hgrounded hclauses h hinitial .null
              | aliasOf p =>
                  exact hchoice ref [.resolve ref (.aliasOf p)] rest _ rfl hless (fun hinitial =>
                    h.passed hinitial) fun hinitial =>
                    makeAlias_assembles hcoherent hgrounded hctx hclauses h hinitial
              | fresh p type =>
                  by_cases harray : Descriptor.isArray type = true
                  · -- The condition on the length is dealt with together with the array.
                    obtain ⟨n, rest', rfl, hmeasures⟩ :=
                      hgrounded.arrays done ref p type rest hclauses harray
                    simp only [walk, harray, if_true]
                    refine hchoice ref [.resolve ref (.fresh p type), .assume (lengthCondition n)]
                      rest' _ rfl (Nat.lt_of_succ_lt hless) (fun hinitial => ?_) fun hinitial =>
                      expandArray_assembles hcoherent hgrounded hclauses hmeasures h hinitial
                    rw [List.append_cons]
                    have hpassed := h.passed (c := .resolve ref (.fresh p type)) hinitial
                    refine hpassed.passed fun hsteady hstarts => ?_
                    have href := (hgrounded.clauses done _ _ hclauses _ (.resolved ref _)).1
                    have hn := hsteady ref n href hmeasures.found
                    rw [hstarts n List.mem_cons_self, hinitial] at hn
                    cases hn
                  · unfold walk
                    simp only [harray, Bool.false_eq_true, if_false]
                    exact hchoice ref [.resolve ref (.fresh p type)] rest _ rfl hless
                      (fun hinitial => h.passed hinitial) fun hinitial =>
                      setReference_assembles hcoherent hgrounded hclauses h hinitial
                        (.object p type)

/-- The statements for a whole path. -/
theorem walk_path_assembles (hcoherent : s.Coherent classes) (hgrounded : s.Grounded classes)
    (initialRoots : List String) (m : Option Model) :
    Assembles (contextOf initialRoots s m) s
      (walk (contextOf initialRoots s m) s.condition.clauses) {}
      (Assembled (contextOf initialRoots s m) s s.condition.clauses) :=
  walk_assembles hcoherent hgrounded rfl (List.nil_append _).symm .start

end Steps

section Clear

/-- A condition that was dealt with has symbols, and values for them unless one of them
    was there before the path began. -/
theorem Assembled.passes (h : Assembled ctx s done st) {c : Term} (hc : .assume c ∈ done) :
    Passes ctx s (.assume c) := by
  induction h with
  | start => exact absurd hc List.not_mem_nil
  | given _ _ _ _ _ _ ih => exact ih hc
  | settled _ _ _ _ _ _ ih =>
      rcases List.mem_append.1 hc with hold | hnew
      · exact ih hold
      · cases List.mem_singleton.1 hnew
  | passed _ hpasses ih =>
      rcases List.mem_append.1 hc with hold | hnew
      · exact ih hold
      · rw [List.mem_singleton.1 hnew]
        exact hpasses

/-- An alias that was dealt with points to something behind a root with a variable. -/
theorem Assembled.aliased (h : Assembled ctx s done st) {p : Int}
    (hc : .resolve ref (.aliasOf p) ∈ done) (hinitial : ctx.isInitial ref.origin = false) :
    ∃ target type, .resolve target (.fresh p type) ∈ done ∧ target.origin.root ∈ st.roots := by
  induction h with
  | start => exact absurd hc List.not_mem_nil
  | given _ _ _ _ _ _ ih =>
      obtain ⟨target, type, htarget, hroot⟩ := ih hc
      exact ⟨target, type, htarget, mem_roots_give.2 (.inr hroot)⟩
  | settled _ _ _ _ hprovides _ ih =>
      rcases List.mem_append.1 hc with hold | hnew
      · obtain ⟨target, type, htarget, hroot⟩ := ih hold
        exact ⟨target, type, List.mem_append_left _ htarget, mem_roots_settle.2 (.inr hroot)⟩
      · obtain ⟨rfl, rfl⟩ := Clause.resolve.inj (List.mem_singleton.1 hnew)
        cases hprovides with
        | same htarget haddress =>
            exact ⟨_, _, List.mem_append_left _ htarget, mem_roots_settle.2 (.inr haddress.1)⟩
  | passed _ hpasses ih =>
      rcases List.mem_append.1 hc with hold | hnew
      · obtain ⟨target, type, htarget, hroot⟩ := ih hold
        exact ⟨target, type, List.mem_append_left _ htarget, hroot⟩
      · rw [← List.mem_singleton.1 hnew] at hpasses
        exact absurd (hinitial.symm.trans hpasses) Bool.false_ne_true

/-- Statements come about only if there is no obstacle. -/
theorem Assembled.unobstructed (hcoherent : s.Coherent classes) (hsteady : ctx.Steady s)
    (h : Assembled ctx s s.condition.clauses st) {e : CaseError} :
    ¬ Obstacle ctx s.condition.clauses e := by
  intro hobstacle
  cases hobstacle with
  | noValue hc hinitial hx hv =>
      have hsome := h.passes hc hsteady hinitial _ hx
      rw [hv] at hsome
      cases hsome
  | @outside ref target p type hc hinitial htarget houtside =>
      obtain ⟨target', type', htarget', hroot⟩ := h.aliased hc hinitial
      -- One reference was expanded to the object.
      have hsame := (hcoherent.parts.condition.expansion?_eq htarget).symm.trans
        (hcoherent.parts.condition.expansion?_eq htarget')
      obtain ⟨rfl, -⟩ := Prod.mk.inj (Option.some.inj hsame)
      obtain ⟨y, -, horigin, hinside, -⟩ := h.declared hroot
      have hinside' := hinside hsteady
      rw [horigin] at hinside'
      exact absurd (hinside'.symm.trans houtside) Bool.false_ne_true

end Clear

end TestCase

end PathWitness
