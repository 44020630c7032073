import PathWitness.Proofs.TestCase.Declarations

/-!
# What a Symbol Is Worth in an Assertion

A test knows two answers to what a symbol is worth. A boolean result is computed from
the values of the model. Any other result is an expression over the variables of the
test, where a symbol without a variable is the default value of its type. The statements
of the test decide which variables there are, and a symbol gets one in any of several
ways, or is passed over.

A variable is declared with the value that the model has for its symbol, and no later
statement changes it. So the second answer is what a symbol is worth when the test runs:
its value from the model if it has a variable, and the default otherwise. The first
answer is the same, but for symbols that were there before the path began. These are
given no variables for the returned value, and the model may have values for them.

## Main definitions

* `valueInTest`: What a symbol is worth when the test runs.
* `Denotes`: What a text in an assertion is worth in a running test.
* `Overlooked`: The model has a value for a symbol, and the test makes no use of it.

## Theorems

* `exec_locals`: What a statement does to the local variables.
* `run_literal`: A variable keeps the constant that it was declared with.
* `declared_of_run`: There are no variables but those that were declared.
* `Assembled.bound`: A symbol with a variable was declared with its value.
* `computed_iff_denoted`: When the two answers agree.
-/

namespace PathWitness

namespace TestCase

open Setup

section Runs

variable {classes : ClassTable} {j j' : JavaState} {w : JavaValue} {name : String}

/-- No variable is declared by computing a value. -/
theorem locals_eval {v : Source} (h : v.eval classes j = .ok (w, j')) : j'.locals = j.locals := by
  induction v with
  | null | literal | newObject =>
      obtain ⟨-, rfl⟩ := Prod.mk.inj (Except.ok.inj h)
      rfl
  | var =>
      obtain ⟨_, -, h⟩ := bind_eq_ok h
      obtain ⟨-, rfl⟩ := Prod.mk.inj (Except.ok.inj h)
      rfl
  | newArray =>
      obtain ⟨length, -, h⟩ := bind_eq_ok h
      split at h
      · split at h
        · obtain ⟨-, rfl⟩ := Prod.mk.inj (Except.ok.inj h)
          rfl
        · cases h
      · cases h
  | element | chain =>
      obtain ⟨_, -, h⟩ := bind_eq_ok h
      obtain ⟨_, -, h⟩ := bind_eq_ok h
      obtain ⟨-, rfl⟩ := Prod.mk.inj (Except.ok.inj h)
      rfl
  | cast _ v ih => exact ih h

/-- A store writes into an object. -/
theorem locals_store {steps : List ChainStep} (h : j.store name steps w = .ok j') :
    j'.locals = j.locals := by
  obtain ⟨_, -, h⟩ := bind_eq_ok h
  obtain ⟨holder, -, h⟩ := bind_eq_ok h
  cases hlast : steps.getLast? with
  | none =>
      rw [hlast] at h
      cases h
  | some last =>
      rw [hlast] at h
      obtain ⟨p, hp, h⟩ := bind_eq_ok h
      obtain rfl := Except.ok.inj h
      cases p with
      | field | element => rfl
      | binding other =>
          -- No step leads to a variable.
          unfold JavaState.locate at hp
          repeat' split at hp
          all_goals cases hp

/-- What a statement does to the local variables: it declares one that was not there, or
    leaves them as they are. -/
theorem exec_locals {statement : Statement} (h : statement.exec classes j = .ok j') :
    (∃ type name v w j₁, statement = .declare type name v ∧ j.get? (.binding name) = none ∧
      v.eval classes j = .ok (w, j₁) ∧ j'.locals = (name, w) :: j.locals) ∨
    statement.local? = none ∧ j'.locals = j.locals := by
  cases statement with
  | declare type name v =>
      simp only [Statement.exec] at h
      split at h
      · cases h
      · rename_i hfree
        obtain ⟨⟨w, j₁⟩, heval, h⟩ := bind_eq_ok h
        obtain rfl := Except.ok.inj h
        refine .inl ⟨type, name, v, w, j₁, rfl, Option.not_isSome_iff_eq_none.1 hfree, heval, ?_⟩
        rw [← locals_eval heval]
        rfl
  | storeElement | storeChain =>
      obtain ⟨⟨w, j₁⟩, heval, h⟩ := bind_eq_ok h
      exact .inr ⟨rfl, (locals_store h).trans (locals_eval heval)⟩

theorem exec_keeps {statement : Statement} (h : statement.exec classes j = .ok j')
    (hname : j.get? (.binding name) = some w) : j'.get? (.binding name) = some w := by
  rcases exec_locals h with ⟨_, other, _, _, _, -, hfree, -, hlocals⟩ | ⟨-, hlocals⟩
  · -- The new variable is another one, since its name was free.
    have hne : (name == other) = false := by
      refine beq_eq_false_iff_ne.2 fun hc => ?_
      rw [hc, hfree] at hname
      cases hname
    rw [JavaState.get?, hlocals, List.lookup_cons, hne]
    exact hname
  · rw [JavaState.get?, hlocals]
    exact hname

/-- A variable keeps its value to the end. -/
theorem run_keeps {statements : List Statement} (h : runStatements classes statements j = .ok j')
    (hname : j.get? (.binding name) = some w) : j'.get? (.binding name) = some w := by
  induction statements generalizing j with
  | nil =>
      obtain rfl := Except.ok.inj h
      exact hname
  | cons statement rest ih =>
      obtain ⟨j₁, hexec, hrest⟩ := bind_eq_ok h
      exact ih hrest (exec_keeps hexec hname)

/-- A variable that is declared with a constant has this value in the end. -/
theorem run_literal {statements : List Statement} {type : String} {p : Prim} {c : Const}
    (h : runStatements classes statements j = .ok j')
    (hmem : .declare type name (.literal p c) ∈ statements) :
    j'.get? (.binding name) = some (.const (c.convert p)) := by
  induction statements generalizing j with
  | nil => exact absurd hmem List.not_mem_nil
  | cons statement rest ih =>
      obtain ⟨j₁, hexec, hrest⟩ := bind_eq_ok h
      rcases List.mem_cons.1 hmem with rfl | hmem
      · refine run_keeps hrest ?_
        rcases exec_locals hexec with ⟨_, _, _, w, _, hdeclare, -, heval, hlocals⟩ | ⟨hnone, -⟩
        · obtain ⟨-, rfl, rfl⟩ := Statement.declare.inj hdeclare
          obtain ⟨rfl, -⟩ := Prod.mk.inj (Except.ok.inj heval)
          rw [JavaState.get?, hlocals, List.lookup_cons, beq_self_eq_true]
        · cases hnone
      · exact ih hrest hmem

/-- There are no variables but those that were there and those that were declared. -/
theorem declared_of_run {statements : List Statement}
    (h : runStatements classes statements j = .ok j')
    (hname : (j'.get? (.binding name)).isSome) : (j.get? (.binding name)).isSome ∨
      ∃ type, (type, name) ∈ statements.filterMap Statement.local? := by
  induction statements generalizing j with
  | nil =>
      obtain rfl := Except.ok.inj h
      exact .inl hname
  | cons statement rest ih =>
      obtain ⟨j₁, hexec, hrest⟩ := bind_eq_ok h
      rcases ih hrest with hthere | ⟨type, hlater⟩
      · rcases exec_locals hexec with ⟨type, other, _, _, _, rfl, -, -, hlocals⟩ | ⟨-, hlocals⟩
        · by_cases hc : name = other
          · subst hc
            exact .inr ⟨type, List.mem_cons_self⟩
          · rw [JavaState.get?, hlocals, List.lookup_cons, beq_eq_false_iff_ne.2 hc] at hthere
            exact .inl hthere
        · rw [JavaState.get?, hlocals] at hthere
          exact .inl hthere
      · refine .inr ⟨type, ?_⟩
        obtain ⟨declaration, hmem, hlocal⟩ := List.mem_filterMap.1 hlater
        exact List.mem_filterMap.2 ⟨declaration, List.mem_cons_of_mem _ hmem, hlocal⟩

end Runs

/-- What a symbol is worth when the test runs: its value from the model if it has a
    variable, and the default of its type otherwise. -/
def valueInTest (ctx : Context) (st : Setup) (x : PrimSymbol) : Const :=
  match st.nameOf? x.id, ctx.model.get? x.number with
  | some _, some w => w.convert x.type
  | _, _ => .zero x.type

/-- What a text in an assertion is worth in a running test, at a type. -/
inductive Denotes (j : JavaState) (type : Prim) : String → Const → Prop where
  /-- The text is a variable. -/
  | binding {name : String} {c : Const} (h : j.get? (.binding name) = some (.const c)) :
    Denotes j type name c
  /-- The text is the default value of the type. -/
  | default : Denotes j type (defaultText type.descriptor) (.zero type)

/-- The model has a value for a symbol, and the test makes no use of it: the symbol was
    there before the path began, and it has no variable. -/
structure Overlooked (ctx : Context) (st : Setup) (x : PrimSymbol) : Prop where
  initial : ctx.isInitial x.origin = true
  unbound : st.nameOf? x.id = none
  value : ∃ w, ctx.model.get? x.number = some w ∧ w.convert x.type ≠ .zero x.type

variable {classes : ClassTable} {ctx : Context} {s : PathState} {done : List Clause}
  {st st' : Setup} {x : PrimSymbol}

section Denotation

/-- A symbol with a variable was declared with its value from the model. -/
theorem Assembled.bound (h : Assembled ctx s done st) (ht : s.symbols.WellFormed)
    (hx : .prim x ∈ s.symbols.symbols) (hbound : (st.nameOf? x.id).isSome) :
    st.nameOf? x.id = some (variableOf x) ∧ ∃ w, ctx.model.get? x.number = some w ∧
      .declare x.type.descriptor (variableOf x) (.literal x.type w) ∈ st.statements := by
  induction h with
  | start => cases hbound
  | @given _ st y v _ hy _ _ hv _ ih =>
      by_cases hid : x.id = y.id
      · obtain rfl := Symbol.prim.inj (ht.eq_of_number hx hy (id_inj hid))
        exact ⟨nameOf?_give_self, v, hv, List.mem_append_right _ List.mem_cons_self⟩
      · have hother : (st.give y v).nameOf? x.id = st.nameOf? x.id := by
          simp only [Setup.nameOf?, Setup.give, List.lookup_cons, beq_eq_false_iff_ne.2 hid]
        rw [hother] at hbound ⊢
        obtain ⟨hname, w, hw, hdeclared⟩ := ih hbound
        exact ⟨hname, w, hw, statements_give hdeclared⟩
  | settled _ _ _ _ _ _ ih =>
      rw [nameOf?_settle] at hbound ⊢
      obtain ⟨hname, w, hw, hdeclared⟩ := ih hbound
      exact ⟨hname, w, hw, statements_settle hdeclared⟩
  | passed _ _ ih => exact ih hbound

theorem defaultText_ne_variableName (p : Prim) (y : Symbol) :
    defaultText p.descriptor ≠ variableName y := by
  intro h
  have hhead := head_variableName y
  rw [← h] at hhead
  cases p <;> exact absurd hhead (by decide)

/-- The text of a symbol is worth one thing in a running test. -/
theorem Assembled.denotes_iff (h : Assembled ctx s done st) (ht : s.symbols.WellFormed)
    (hx : .prim x ∈ s.symbols.symbols) {java : ClassTable} {j : JavaState}
    (hrun : runStatements java st.statements {} = .ok j) (c : Const) :
    Denotes j x.type ((st.nameOf? x.id).getD (defaultText x.type.descriptor)) c ↔
      c = valueInTest ctx st x := by
  unfold valueInTest
  cases hname : st.nameOf? x.id with
  | some name =>
      obtain ⟨hvariable, w, hw, hdeclared⟩ := h.bound ht hx (by rw [hname]; rfl)
      obtain rfl := Option.some.inj (hname.symm.trans hvariable)
      have hvalue := run_literal hrun hdeclared
      rw [hw, Option.getD_some]
      refine ⟨fun hdenotes => ?_, fun hc => hc ▸ .binding hvalue⟩
      -- No variable is spelled like a default value.
      generalize hname : variableOf x = name at hdenotes hvalue
      cases hdenotes with
      | binding hc => exact JavaValue.const.inj (Option.some.inj (hc.symm.trans hvalue))
      | default => exact absurd hname.symm (defaultText_ne_variableName x.type (.prim x))
  | none =>
      rw [Option.getD_none]
      refine ⟨fun hdenotes => ?_, fun hc => hc ▸ .default⟩
      generalize htext : defaultText x.type.descriptor = text at hdenotes
      cases hdenotes with
      | default => rfl
      | binding hc =>
          -- The text would be a variable, and all variables belong to symbols.
          rcases declared_of_run hrun (by rw [hc]; rfl) with hempty | ⟨type, hdeclared⟩
          · cases hempty
          · obtain ⟨owners, -, hlocals, -⟩ := h.owners
            rw [hlocals] at hdeclared
            obtain ⟨y, -, hy⟩ := List.mem_map.1 hdeclared
            exact absurd (htext.trans (Prod.mk.inj hy).2.symm) (defaultText_ne_variableName _ _)

end Denotation

section Agreement

theorem convert_zero (p : Prim) : (Const.zero p).convert p = .zero p :=
  if_pos (Const.type_ofInt64 p 0)

/-- What a symbol is worth is of its type. -/
theorem convert_valueInTest : (valueInTest ctx st x).convert x.type = valueInTest ctx st x := by
  refine if_pos ?_
  unfold valueInTest
  split
  · exact Const.type_convert _ _
  · exact Const.type_ofInt64 _ _

theorem eval_valueOrDefault (m : Model) :
    (Term.symbol x).eval (valueOrDefault m)
      = .ok (((m.get? x.number).getD (.zero x.type)).convert x.type) :=
  rfl

/-- A symbol is computed with what it is worth in the test, unless it is overlooked. -/
theorem eval_eq_valueInTest_iff
    (hvalued : (st.nameOf? x.id).isSome → (ctx.model.get? x.number).isSome)
    (hbound : ctx.isInitial x.origin = false → (ctx.model.get? x.number).isSome →
      (st.nameOf? x.id).isSome) :
    (Term.symbol x).eval (valueOrDefault ctx.model) = .ok (valueInTest ctx st x) ↔
      ¬ Overlooked ctx st x := by
  rw [eval_valueOrDefault, Except.ok.injEq]
  unfold valueInTest
  cases hname : st.nameOf? x.id with
  | some name =>
      obtain ⟨w, hw⟩ := Option.isSome_iff_exists.1 (hvalued (by rw [hname]; rfl))
      rw [hw]
      refine ⟨fun _ hover => ?_, fun _ => rfl⟩
      cases hname.symm.trans hover.unbound
  | none =>
      cases hw : ctx.model.get? x.number with
      | none =>
          refine ⟨fun _ hover => ?_, fun _ => convert_zero x.type⟩
          obtain ⟨w, hw', -⟩ := hover.value
          cases hw.symm.trans hw'
      | some w =>
          -- Only what was there before the path began has a value and no variable.
          have hinitial : ctx.isInitial x.origin = true := by
            by_contra hc
            have hsome := hbound (Bool.eq_false_iff.2 hc) (by rw [hw]; rfl)
            rw [hname] at hsome
            cases hsome
          refine ⟨fun hzero hover => ?_, fun hnot => ?_⟩
          · obtain ⟨w', hw', hne⟩ := hover.value
            obtain rfl := Option.some.inj (hw.symm.trans hw')
            exact hne hzero
          · by_contra hne
            exact hnot ⟨hinitial, hname, w, hw, hne⟩

end Agreement

/-- The conditions and the returned value of a path are about its own symbols. Then a
    symbol of the returned value that has a variable has a value in the model. Its text
    is worth this value in the running test, and the default of its type if there is no
    variable. A boolean result is computed with the same value if and only if the symbol
    is not overlooked. If none is, the result is what the returned value is worth in the
    test. -/
theorem computed_iff_denoted {signature : Signature} {isStatic : Bool} {parameters : List String}
    {journal : Journal} {u : Session} {initialRoots : List String} {m : Option Model} {t : Term}
    (henter : PathState.enter signature isStatic parameters = .ok s)
    (hfollows : Follows (Conduct.ownSymbols classes) ⟨s, journal⟩ u)
    (hreturns : u.state.ReturnsOwn) (hreturned : u.state.returned = some (.term t))
    (hctx : ctx = contextOf initialRoots u.state m)
    (hwalk : (walk ctx u.state.condition.clauses).run {} = .ok ((), st))
    (hbind : (bindReturned ctx t).run st = .ok ((), st')) :
    (∀ x ∈ t.symbols,
      ((st'.nameOf? x.id).isSome → ∃ w, ctx.model.get? x.number = some w ∧
        valueInTest ctx st' x = w.convert x.type) ∧
      (∃ text, variableOrDefault st' x = .ok text ∧
        ∀ java j, runStatements java st'.statements {} = .ok j →
          ∀ c, Denotes j x.type text c ↔ c = valueInTest ctx st' x) ∧
      ((Term.symbol x).eval (valueOrDefault ctx.model) = .ok (valueInTest ctx st' x) ↔
        ¬ Overlooked ctx st' x)) ∧
    ((∀ x ∈ t.symbols, ¬ Overlooked ctx st' x) → t.eval (valueOrDefault ctx.model)
      = t.eval fun x => .ok (valueInTest ctx st' x)) := by
  subst hctx
  obtain ⟨hcoherent, hgrounded⟩ := grounded_of_follows henter hfollows
  have ht := hcoherent.parts.table
  rw [PathState.ReturnsOwn, hreturned] at hreturns
  obtain ⟨hst', hbound⟩ :=
    bindReturned_assembled hgrounded (walk_assembled hcoherent hgrounded hwalk) hreturns hbind
  have hown : ∀ x ∈ t.symbols, .prim x ∈ u.state.symbols.symbols := fun x hx =>
    hreturns x (mem_of_mem_firstOccurrences hx)
  have hagrees := fun x hx => eval_eq_valueInTest_iff hst'.valued (hbound x hx)
  refine ⟨fun x hx => ⟨fun hsome => ?_, ⟨_, rfl, fun java j hrun => ?_⟩, hagrees x hx⟩,
    fun hnone => t.eval_eq_of_symbols fun y hy => ?_⟩
  · obtain ⟨hname, w, hw, -⟩ := hst'.bound ht (hown x hx) hsome
    refine ⟨w, hw, ?_⟩
    rw [valueInTest, hname, hw]
  · exact hst'.denotes_iff ht (hown x hx) hrun
  · -- Every occurrence is one of the symbols.
    obtain ⟨x, hx, hnumber⟩ := exists_mem_firstOccurrences hy
    obtain rfl := Symbol.prim.inj (ht.eq_of_number (hown x hx) (hreturns y hy) hnumber)
    exact ((hagrees x hx).2 (hnone x hx)).trans (congrArg Except.ok convert_valueInTest.symm)

/-- A method that tells whether a number is positive. -/
def signMethod : Signature := ⟨"pkg/M", "(I)Z", "run"⟩

/-- The number that the method is given. -/
def signNumber : PrimSymbol := ⟨0, .int, .ofRoot "pre_init"⟩

/-- The state at the entry of the method. -/
def signEntry : PathState where
  signature := signMethod
  isStatic := true
  frame := [⟨0, "pre_init", "I", .prim signNumber⟩]
  symbols := ⟨[.prim signNumber]⟩

/-- The number is positive. -/
def isPositive : Term := .binary (.comparison .gt) (.symbol signNumber) (.const (.int 0))

/-- The path ends with the answer. -/
def signedState : PathState := { signEntry with returned := some (.term isPositive) }.freeze

/-- The number is five. -/
def signModel : Model := Model.empty.set signNumber (.int 5)

theorem enter_sign : PathState.enter signMethod true ["pre_init"] = .ok signEntry := by
  have hparameters : Descriptor.parameters signMethod.descriptor = .ok [.typed "I"] := by cbv
  have hresult : Descriptor.result signMethod.descriptor = .ok "Z" := by cbv
  rw [PathState.enter, hparameters, hresult]
  rfl

theorem signedState_follows :
    Follows (Conduct.ownSymbols ⟨[]⟩) ⟨signEntry, []⟩ ⟨signedState, []⟩ :=
  .returnValue (some (.term isPositive)) (.refl _) rfl

theorem signedState_returnsOwn : signedState.ReturnsOwn := by
  intro x hx
  rw [List.mem_singleton.1 hx]
  exact List.mem_cons_self

/-- If nothing was there before the path began, the number has a variable with its value,
    and the answer is computed from this value. -/
theorem computed_iff_denoted_sign :
    PathState.enter signMethod true ["pre_init"] = .ok signEntry ∧
      Follows (Conduct.ownSymbols ⟨[]⟩) ⟨signEntry, []⟩ ⟨signedState, []⟩ ∧
      signedState.ReturnsOwn ∧ signedState.returned = some (.term isPositive) ∧
      ∃ ctx st j, ctx = contextOf [] signedState (some signModel) ∧
        (walk ctx signedState.condition.clauses).run {} = .ok ((), {}) ∧
        (bindReturned ctx isPositive).run {} = .ok ((), st) ∧
        runStatements ⟨[]⟩ st.statements {} = .ok j ∧ Denotes j .int "__pre_init" (.int 5) ∧
        isPositive.eval (valueOrDefault ctx.model)
          = isPositive.eval fun x => .ok (valueInTest ctx st x) := by
  obtain ⟨hdenoted, hcomputed⟩ := computed_iff_denoted enter_sign
    signedState_follows signedState_returnsOwn rfl
    (Eq.refl (contextOf [] signedState (some signModel))) rfl rfl
  obtain ⟨-, ⟨text, htext, hdenotes⟩, -⟩ := hdenoted signNumber List.mem_cons_self
  obtain rfl : "__pre_init" = text := Except.ok.inj htext
  refine ⟨enter_sign, signedState_follows, signedState_returnsOwn, rfl, _, _, _, rfl, rfl, rfl, rfl,
    (hdenotes ⟨[]⟩ _ rfl (.int 5)).2 rfl, hcomputed fun x _ hover => ?_⟩
  cases hover.initial

/-- The number was there before the path began. The test gives the method the default
    number, and expects the answer for the number of the model. -/
theorem computed_with_overlooked_number :
    PathState.enter signMethod true ["pre_init"] = .ok signEntry ∧
      Follows (Conduct.ownSymbols ⟨[]⟩) ⟨signEntry, []⟩ ⟨signedState, []⟩ ∧
      signedState.ReturnsOwn ∧ signedState.returned = some (.term isPositive) ∧
      ∃ ctx, ctx = contextOf ["pre_init"] signedState (some signModel) ∧
        (walk ctx signedState.condition.clauses).run {} = .ok ((), {}) ∧
        (bindReturned ctx isPositive).run {} = .ok ((), {}) ∧
        (Term.symbol signNumber).eval (valueOrDefault ctx.model) = .ok (.int 5) ∧
        variableOrDefault {} signNumber = .ok "0" ∧ valueInTest ctx {} signNumber = .int 0 ∧
        (ofPath ["pre_init"] 0 signEntry signedState (some signModel)).toOption = some
          ⟨0, none, [], ⟨.static, "pkg/M", "run", [.default "I"]⟩, some ("Z", .truth true)⟩ ∧
        (isPositive.eval fun x => .ok (valueInTest ctx {} x) : Except (EvalError MissingValue) _)
          = .ok (.boolean false) := by
  refine ⟨enter_sign, signedState_follows, signedState_returnsOwn, rfl, _, rfl, rfl, rfl, rfl,
    congrArg Except.ok ?_, rfl, ?_, rfl⟩
  · decide +kernel
  · decide +kernel

end TestCase

end PathWitness
