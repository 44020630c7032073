import PathWitness.Proofs.ClassTable
import PathWitness.Proofs.TestCase.Realises
import PathWitness.TestCase.Case

/-!
# Tests Bring About What a Path Has Assumed

Each kind of clause extends what the statements have brought about by one clause,
and an array by two, since its length is the condition behind it. So the
statements for all clauses bring about the whole path: running them succeeds,
and then what is read at the origin of a symbol is its value.

## Theorems

* `bindCondition_realises`, `expandArray_realises`: The statements for a condition,
  and for an array.
* `walk_realises`: The statements for all clauses.
* `Realises.reference`, `Realises.symbol`: What is read afterwards.
* `setup_realises`: Running the statements of a path succeeds, and then every
  reference is what the path has resolved it to.
-/

namespace PathWitness

namespace TestCase

open Setup

variable {classes : ClassTable} {s : PathState} {m : Model} {done rest : List Clause}
  {st : Setup} {j : JavaState} {ctx : Context} {x : Symbol}

section Clauses

/-- What was brought about, together with a clause that resolves nothing and whose
    symbols have variables. -/
theorem Realises.other (hR : Realises classes s m done st j) {c : Clause}
    (hc : ∀ ref how, c ≠ .resolve ref how)
    (hbound : ∀ x, c.Mentions (.prim x) → (st.nameOf? x.id).isSome) :
    Realises classes s m (done ++ [c]) st j where
  run := hR.run
  size := by
    have hnone : c.expandedPosition? = none := by
      cases c with
      | resolve ref how => exact absurd rfl (hc ref how)
      | assume t => rfl
      | initialized name => rfl
    rw [length_expandedPositions_snoc, hnone, hR.size]
    rfl
  holds := (hR.holds.snoc fun ref p type heq => absurd heq (hc ref _)).congr
    fun _ _ => known_other hc
  roots := fun ref how hmem hroot => by
    rcases List.mem_append.1 hmem with hmem | hmem
    · exact hR.roots ref how hmem hroot
    · exact absurd (List.mem_singleton.1 hmem).symm (hc ref how)
  names := hR.names
  bound := fun t x hmem hx => by
    rcases List.mem_append.1 hmem with hmem | hmem
    · exact hR.bound t x hmem hx
    · rw [List.mem_singleton.1 hmem] at hx
      exact hbound x hx

/-- Nothing that hangs on the clauses of a path was there before the path began. -/
theorem Describes.not_isInitial (hctx : Describes ctx s m)
    (hx : Anchored classes s.frame done x) : ctx.isInitial x.origin = false := by
  obtain ⟨v, hv, hname⟩ := hx.root_name
  rw [Context.isInitial, hname, List.contains_eq_mem, decide_eq_false_iff_not]
  exact hctx.initial v hv

/-- A condition gets variables for its symbols. -/
theorem bindCondition_realises (h : Realisable classes s m) (hctx : Describes ctx s m) {c : Term}
    (hclauses : s.condition.clauses = done ++ .assume c :: rest)
    (hR : Realises classes s m done st j) :
    ∃ st' j', (bindCondition ctx c).run st = .ok ((), st') ∧
      Realises classes s m (done ++ [.assume c]) st' j' := by
  have hc : .assume c ∈ s.condition.clauses := by
    rw [hclauses]
    exact List.mem_append_right _ List.mem_cons_self
  have hmentions : ∀ x ∈ c.symbols, (Clause.assume c).Mentions (.prim x) :=
    fun x hx => .occurs (mem_of_mem_firstOccurrences hx)
  have hrooted := h.grounded.clauses done _ rest hclauses
  obtain ⟨st', j', hrun, hR', hbound, -⟩ := bindSymbols_realises h hctx (subset_of_split hclauses)
    c.symbols (fun x hx => ⟨(hrooted _ (hmentions x hx)).1,
      mentioned_of_split hclauses (hmentions x hx), h.values hc (mem_of_mem_firstOccurrences hx),
      (hrooted _ (hmentions x hx)).2⟩) hR
  refine ⟨st', j', ?_, hR'.other (fun _ _ heq => by cases heq) fun x hx => ?_⟩
  · have hinitial : c.symbols.any (fun x => ctx.isInitial x.origin) = false :=
      List.any_eq_false.2 fun x hx => Bool.not_eq_true _ ▸
        hctx.not_isInitial (hrooted _ (hmentions x hx)).2
    rw [bindCondition, hinitial]
    exact hrun
  · -- An occurrence has the identifier of the first one with its number.
    cases hx with
    | occurs hx =>
        obtain ⟨y, hy, hyx⟩ := exists_mem_firstOccurrences hx
        rw [PrimSymbol.id, ← hyx]
        exact hbound y hy

/-- An array gets the length that the condition behind it is about. -/
theorem expandArray_realises (h : Realisable classes s m) (hctx : Describes ctx s m)
    {ref : RefSymbol} {p : Int} {type : String} {n : PrimSymbol}
    (hclauses : s.condition.clauses
      = done ++ .resolve ref (.fresh p type) :: .assume (lengthCondition n) :: rest)
    (harray : Descriptor.isArray type = true)
    (hmeasures : Measures classes s.frame s.symbols done ref n)
    (hR : Realises classes s m done st j) :
    ∃ st' j', (expandArray ctx ref type (lengthCondition n)).run st = .ok ((), st') ∧
      Realises classes s m
        (done ++ [.resolve ref (.fresh p type)] ++ [.assume (lengthCondition n)]) st' j' := by
  have hassume : .assume (lengthCondition n) ∈ s.condition.clauses := by
    rw [hclauses]
    exact List.mem_append_right _ (List.mem_cons_of_mem _ List.mem_cons_self)
  have hmentions : (Clause.assume (lengthCondition n)).Mentions (.prim n) :=
    .occurs (List.mem_singleton_self n)
  have hn := SymbolTable.mem_of_find? hmeasures.found
  obtain ⟨v, i, hv, hint, hpos⟩ := h.length_value hassume hmeasures.type
  obtain ⟨st₁, j₁, hrun₁, hR₁, hbound, -⟩ := bindSymbol_realises h hctx (subset_of_split hclauses)
    hR hn ⟨_, hassume, hmentions⟩ hv (hmeasures.origin.symm.imp id fun horigin => by
      rw [horigin, Origin.last?_push])
  obtain ⟨name, hname⟩ := Option.isSome_iff_exists.1 hbound
  obtain rfl := hR₁.names n name hn hname
  -- The variable of the length holds a number that is not negative.
  have hvalue : j₁.get? (.binding (variableOf n)) = some (.const (.int i)) := by
    have hheld := hR₁.holds.values _ _ ⟨_, .prim hn hbound hv, stores_variableOf _ n⟩
    rwa [hmeasures.type, hint] at hheld
  have hform : (JavaObject.newArray type i.toInt.toNat).form = .ofArray type i.toInt.toNat := by
    rw [JavaObject.newArray, JavaObject.form, List.length_replicate]
  obtain ⟨st₂, j₂, hrun₂, hR₂, hnames⟩ := setReference_new ctx h hclauses hR₁
    (v := .newArray type (variableOf n)) (o := .newArray type i.toInt.toNat)
    (by rw [hform]; exact .array harray hmeasures.found hmeasures.type hv hint hpos) (by
      simp only [Source.eval, JavaState.variableValue, hvalue]
      exact if_pos hpos)
  refine ⟨st₂, j₂, ?_, hR₂.other (fun _ _ heq => by cases heq) fun x hx => ?_⟩
  · change ((bindSymbol ctx n >>= fun _ => get >>= fun st =>
      setReference ctx ref (.newArray type ((st.nameOf? n.id).getD ""))).run st) = _
    rw [StateT.run_bind, hrun₁]
    change (setReference ctx ref (.newArray type ((st₁.nameOf? n.id).getD ""))).run st₁ = _
    rw [hname]
    exact hrun₂
  · cases hx with
    | occurs hx =>
        rw [List.mem_singleton.1 hx, hnames]
        exact hbound

/-- The statements for the rest of the clauses bring about all of them. -/
theorem walk_realises (ctx : Context) (h : Realisable classes s m) (hctx : Describes ctx s m)
    (hclauses : s.condition.clauses = done ++ rest) (hR : Realises classes s m done st j) :
    ∃ st' j', (walk ctx rest).run st = .ok ((), st') ∧
      Realises classes s m s.condition.clauses st' j' := by
  induction hlength : rest.length using Nat.strongRecOn generalizing rest done st j with
  | ind length ih =>
      -- The clauses that one step takes care of are put behind those that are done.
      have hstep : ∀ (added left : List Clause) (step : SetupM Unit), rest = added ++ left →
          left.length < length → (∃ st' j', step.run st = .ok ((), st') ∧
            Realises classes s m (done ++ added) st' j') →
          ∃ st' j', (step >>= fun _ => walk ctx left).run st = .ok ((), st') ∧
            Realises classes s m s.condition.clauses st' j' := by
        rintro added left step hrest hless ⟨st₁, j₁, hrun₁, hR₁⟩
        obtain ⟨st₂, j₂, hrun₂, hR₂⟩ := ih left.length hless
          (by rw [hclauses, hrest, List.append_assoc]) hR₁ rfl
        exact ⟨st₂, j₂, by rw [StateT.run_bind, hrun₁]; exact hrun₂, hR₂⟩
      cases rest with
      | nil =>
          rw [List.append_nil] at hclauses
          exact ⟨st, j, rfl, hclauses ▸ hR⟩
      | cons c rest =>
          have hless : rest.length < length := by
            rw [← hlength, List.length_cons]
            omega
          cases c with
          | initialized name =>
              refine hstep [.initialized name] rest (pure ()) rfl hless ⟨st, j, rfl,
                hR.other (fun _ _ heq => by cases heq) fun x hx => by cases hx⟩
          | assume c =>
              exact hstep [.assume c] rest (bindCondition ctx c) rfl hless
                (bindCondition_realises h hctx hclauses hR)
          | resolve ref how =>
              have hinitial := hctx.not_isInitial
                (h.grounded.clauses done _ rest hclauses _ (.resolved ref how)).2
              rw [Symbol.origin] at hinitial
              cases how with
              | null =>
                  simp only [walk, hinitial, Bool.not_false, if_true]
                  exact hstep [.resolve ref .null] rest _ rfl hless (setReference_old ctx h hclauses
                    (fun _ _ heq => by cases heq) hR rfl)
              | aliasOf p =>
                  simp only [walk, hinitial, Bool.not_false, if_true]
                  exact hstep [.resolve ref (.aliasOf p)] rest _ rfl hless
                    (makeAlias_realises h hctx hclauses hR)
              | fresh p type =>
                  by_cases harray : Descriptor.isArray type = true
                  · -- The condition on the length is dealt with together with the array.
                    obtain ⟨n, rest', rfl, hmeasures⟩ :=
                      h.grounded.arrays done ref p type rest hclauses harray
                    simp only [walk, harray, hinitial, Bool.not_false, if_true]
                    have hboth := expandArray_realises h hctx hclauses harray hmeasures hR
                    rw [List.append_assoc] at hboth
                    exact hstep [.resolve ref (.fresh p type), .assume (lengthCondition n)] rest' _
                      rfl (Nat.lt_of_succ_lt hless) hboth
                  · unfold walk
                    simp only [harray, hinitial, Bool.not_false, if_true, Bool.false_eq_true,
                      if_false]
                    exact hstep [.resolve ref (.fresh p type)] rest _ rfl hless
                      (newObject_realises ctx h hclauses (Bool.not_eq_true _ ▸ harray) hR)

end Clauses

section Reading

/-- Nothing is brought about before the first clause. -/
theorem Realises.start (classes : ClassTable) (s : PathState) (m : Model) :
    Realises classes s m [] {} {} where
  run := rfl
  size := rfl
  holds := by
    refine ⟨fun π w hknown => ?_, fun name w hget => ?_, fun ref p type hc => ?_⟩
    · obtain ⟨x, hx, -⟩ := hknown
      cases hx with
      | ref hclause => exact absurd hclause List.not_mem_nil
      | prim _ hbound _ => cases hbound
    · cases hget
    · exact absurd hc List.not_mem_nil
  roots := fun ref how hc => absurd hc List.not_mem_nil
  names := fun x name _ hname => by cases hname
  bound := fun c x hc => absurd hc List.not_mem_nil

theorem ofNat_of_nonneg {i : Int32} (h : 0 ≤ i.toInt) : Int32.ofNat i.toInt.toNat = i := by
  rw [← Int32.ofInt_eq_ofNat, Int.toNat_of_nonneg h, Int32.ofInt_toInt]

variable (h : Realisable classes s m) (hR : Realises classes s m s.condition.clauses st j)

include h hR

/-- A reference is what the path has resolved it to. -/
theorem Realises.reference {ref : RefSymbol} {how : Resolution}
    (hclause : .resolve ref how ∈ s.condition.clauses) :
    j.readAt ref.origin = .ok (how.javaValue s.condition.clauses) := by
  have hanchored : Anchored classes s.frame s.condition.clauses (.ref ref) :=
    h.grounded.symbols _ (h.coherent.parts.references _ _ hclause)
  rcases hanchored.addressed fun _ hc => hc with ⟨-, π, hπ⟩ | ⟨-, n, hn⟩
  · have hread := hR.holds.readAt h (fun _ _ hknown => hknown) (fun _ hc => hc) (fun _ hc => hc)
      hanchored ⟨_, hclause, .resolved ref how⟩ hπ
      (hR.holds.values _ _ ⟨_, .ref hclause, .own hπ⟩)
    exact hread
  · cases hn

/-- A symbol of a condition has the value that the model gives it. -/
theorem Realises.symbol {c : Term} {x : PrimSymbol} {v : Const}
    (hclause : .assume c ∈ s.condition.clauses) (hmentions : (Clause.assume c).Mentions (.prim x))
    (hv : m.get? x.number = some v) : j.readAt x.origin = .ok (.const (v.convert x.type)) := by
  have hx : .prim x ∈ s.symbols.symbols := by
    obtain ⟨done, rest, hclauses⟩ := List.append_of_mem hclause
    exact (h.grounded.clauses done _ rest hclauses _ hmentions).1
  have hanchored := h.grounded.symbols _ hx
  have hbound := hR.bound c x hclause hmentions
  rcases hanchored.addressed fun _ hc => hc with ⟨-, π, hπ⟩ | ⟨hlast, -⟩
  · have hread := hR.holds.readAt h (fun _ _ hknown => hknown) (fun _ hc => hc) (fun _ hc => hc)
      hanchored ⟨_, hclause, hmentions⟩ hπ
      (hR.holds.values _ _ ⟨_, .prim hx hbound hv, .own hπ⟩)
    exact hread
  · -- The length of an array is read from the array, which was created with it.
    cases hanchored with
    | root _ horigin =>
        rw [horigin] at hlast
        cases hlast
    | @slot _ base p type a _ hbase horigin ha =>
        have ha' : a = .length := by
          rw [horigin, Origin.last?_push] at hlast
          exact Option.some.inj hlast
        subst ha'
        obtain ⟨form, hformed, hform⟩ := hR.holds.forms base p type hbase
        cases hformed with
        | object harray =>
            rcases ha with hoffers | ⟨-, harray', -⟩
            · cases hoffers
            · exact absurd (harray.symm.trans harray') Bool.false_ne_true
        | @array n v' i harray hfind htype hvalue hint hpos =>
            have hfound := h.coherent.parts.table.found _ hx
            rw [horigin, hfind] at hfound
            obtain rfl := Symbol.prim.inj (Option.some.inj hfound)
            rw [hv] at hvalue
            obtain rfl := Option.some.inj hvalue
            rw [show n.origin = base.origin.push .length from horigin,
              readAt_push (hR.reference h hbase), JavaState.access, Resolution.javaValue,
              lengthOf_array hform, htype, hint, ofNat_of_nonneg hpos]

end Reading

/-- The statements of a path that starts at the entry of a method, and whose conditions
    are about its own symbols, can be made and run. Afterwards there is one object for
    each expansion, of the right class or with the right length; a reference that was
    assumed null is null, and any other is the object of its position; and the symbols
    of conditions have the values that the model gives them. -/
theorem setup_realises {signature : Signature} {isStatic : Bool} {parameters : List String}
    {journal : Journal} {u : Session} (initialRoots : List String)
    (henter : PathState.enter signature isStatic parameters = .ok s)
    (hfollows : Follows (Conduct.ownSymbols classes) ⟨s, journal⟩ u)
    (hinitial : ∀ v ∈ u.state.frame, v.name ∉ initialRoots)
    (hroots : (u.state.frame.map fun v => rootVariable v.name).Nodup)
    (hfields : ∀ c ∈ classes.classes, ∀ f ∈ c.fields, f.name.toList.head? ≠ some '[')
    (hindices : u.state.DistinctIndices)
    (hsatisfied : m.Satisfies (u.state.condition.conditions.map some))
    (hbounds : InBounds m u.state) :
    ∃ st j, (walk (contextOf initialRoots u.state (some m)) u.state.condition.clauses).run {}
        = .ok ((), st) ∧ runStatements classes st.statements {} = .ok j ∧
      j.heap.length = (expandedPositions u.state.condition.clauses).length ∧
      (∀ p ∈ expandedPositions u.state.condition.clauses, ∀ q,
        addressOf u.state.condition.clauses p = addressOf u.state.condition.clauses q → p = q) ∧
      (∀ ref p type, .resolve ref (.fresh p type) ∈ u.state.condition.clauses →
        ∃ form, Formed classes u.state m ref type form ∧
          j.formAt (addressOf u.state.condition.clauses p) = some form) ∧
      (∀ ref how, .resolve ref how ∈ u.state.condition.clauses →
        j.readAt ref.origin = .ok (how.javaValue u.state.condition.clauses)) ∧
      ∀ c x, .assume c ∈ u.state.condition.clauses → (Clause.assume c).Mentions (.prim x) →
        ∃ v, m.get? x.number = some v ∧ j.readAt x.origin = .ok (.const (v.convert x.type)) := by
  obtain ⟨hcoherent, hgrounded⟩ := grounded_of_follows henter hfollows
  have h : Realisable classes u.state m :=
    { coherent := hcoherent
      grounded := hgrounded
      roots := hroots
      indices := hindices
      fields := fun c f hf => by
        obtain ⟨d, hd, hfd⟩ := ClassTable.mem_fields hf
        exact hfields d hd f hfd
      satisfied := hsatisfied
      bounds := hbounds }
  obtain ⟨st, j, hrun, hR⟩ := walk_realises (contextOf initialRoots u.state (some m)) h
    ⟨rfl, rfl, hinitial⟩ (List.nil_append _).symm (Realises.start classes u.state m)
  refine ⟨st, j, hrun, hR.run, hR.size, fun p hp q haddress => addressOf_inj hp haddress,
    hR.holds.forms, fun ref how hc => hR.reference h hc, fun c x hc hx => ?_⟩
  cases hx with
  | occurs hx =>
      obtain ⟨v, hv⟩ := h.values hc hx
      exact ⟨v, hv, hR.symbol h hc (.occurs hx) hv⟩

section Search

/-- A list whose second node is followed by the first, and an array. -/
def foundSession : Session :=
  let resolve := fun (u : Session) ref c => ((nodeEnvironment.resolve ref c).runOn u).2
  let u := resolve ⟨searchEntry, []⟩ ⟨0, "LNode;", .ofRoot "list"⟩ (.expand "")
  let u := resolve u ⟨2, "LNode;", ⟨"list", [.field "next"]⟩⟩ (.expand "")
  let u := resolve u ⟨4, "LNode;", ⟨"list", [.field "next", .field "next"]⟩⟩ (.aliasOf 1)
  resolve u ⟨1, "[I", .ofRoot "keys"⟩ (.expand "")

/-- An element of the array is greater than the value of the second node. -/
def foundCondition : Term :=
  .binary (.comparison .gt) (.symbol ⟨7, .int, ⟨"keys", [.index "3"]⟩⟩)
    (.symbol ⟨5, .int, ⟨"list", [.field "next", .field "value"]⟩⟩)

/-- The session in which this is assumed. -/
def soughtSession : Session :=
  let s := ((PathState.lookup ⟨"keys", [.index "3"]⟩).runOn foundSession.state).2
  ⟨{ s with condition := ((PathCondition.assume (some foundCondition)).runOn s.condition).2 },
    foundSession.journal⟩

/-- The element is the last one of the array. -/
def soughtModel : Model :=
  ((Model.empty.insert 5 (.int 2)).insert 6 (.int 4)).insert 7 (.int 9)

theorem soughtSession_follows :
    Follows (Conduct.ownSymbols nodeClasses) ⟨searchEntry, []⟩ soughtSession := by
  have hfound : Follows (Conduct.ownSymbols nodeClasses) ⟨searchEntry, []⟩ foundSession := by
    refine .resolve_node _ _ (.resolve_node _ _ (.resolve_node _ _ (.resolve_node _ _ (.refl _)
      ?_) ?_) ?_) ?_
    all_goals decide +kernel
  refine .assume (some foundCondition) (fun t ht x hx => ?_)
    (.lookup ⟨"keys", [.index "3"]⟩ hfound)
  obtain rfl := Option.some.inj ht
  revert x
  decide +kernel

theorem soughtSession_indices : soughtSession.state.DistinctIndices := by
  have hkeys : ∀ o ∈ soughtSession.state.heap.objects, o.isArray = true → o.keys = ["[3]"] := by
    decide +kernel
  intro p o ho harray i i' k hi hi' _ _
  have hmem : o ∈ soughtSession.state.heap.objects := by
    obtain ⟨n, _, hget⟩ := Option.bind_eq_some_iff.1 ho
    exact List.mem_of_getElem? hget
  -- The array has one element, so both are spelled like it.
  have hspelled : ∀ {i : String}, (o.slot? ("[" ++ i ++ "]")).isSome → "[" ++ i ++ "]" = "[3]" := by
    intro i hslot
    obtain ⟨e, he, hkey⟩ := List.lookup_isSome_iff.1 hslot
    have hkey' : "[" ++ i ++ "]" ∈ o.keys :=
      List.mem_map.2 ⟨e, he, (beq_iff_eq.1 hkey).symm⟩
    rw [hkeys o hmem harray] at hkey'
    exact List.mem_singleton.1 hkey'
  have hsame := congrArg String.toList ((hspelled hi).trans (hspelled hi').symm)
  simp only [String.toList_append] at hsame
  exact String.toList_inj.1 (List.append_cancel_left (List.append_cancel_right hsame))

theorem soughtModel_satisfies :
    soughtModel.Satisfies (soughtSession.state.condition.conditions.map some) := by
  have hall : ∀ t ∈ soughtSession.state.condition.conditions,
      (soughtModel.eval t).toOption.map Const.toBool = some true := by decide +kernel
  intro c hc
  obtain ⟨t, ht, rfl⟩ := List.mem_map.1 hc
  obtain ⟨v, hv, htrue⟩ := Option.map_eq_some_iff.1 (hall t ht)
  cases heval : soughtModel.eval t with
  | error e =>
      rw [heval] at hv
      cases hv
  | ok w =>
      rw [heval] at hv
      obtain rfl := Option.some.inj hv
      exact ⟨t, w, rfl, heval, htrue⟩

theorem soughtModel_inBounds : InBounds soughtModel soughtSession.state := by
  have hgrounded := (grounded_of_follows enter_search soughtSession_follows).2
  have hindex : ∀ x ∈ soughtSession.state.symbols.symbols, x.origin.hasIndex = true →
      x.origin = (Origin.ofRoot "keys").push (.index "3") := by decide +kernel
  have hlength : soughtSession.state.symbols.find? ((Origin.ofRoot "keys").push .length)
      = some (.prim ⟨6, .int, ⟨"keys", [.length]⟩⟩) := by decide +kernel
  rintro x ⟨c, hc, hx⟩ o i k n v horigin hk hfind hv
  obtain ⟨done, rest, hclauses⟩ := List.append_of_mem hc
  have hmem := (hgrounded.clauses done c rest hclauses x hx).1
  have hpush : x.origin.hasIndex = true := by
    rw [horigin, Origin.hasIndex, Origin.push, List.any_append, List.any_cons, Bool.true_or,
      Bool.or_true]
  obtain ⟨rfl, hi⟩ := Origin.push_inj (horigin.symm.trans (hindex x hmem hpush))
  obtain rfl := Accessor.index.inj hi
  rw [hlength] at hfind
  obtain rfl := Symbol.prim.inj (Option.some.inj hfind)
  obtain rfl := Option.some.inj ((show soughtModel.get? 6 = some (.int 4) from rfl).symm.trans hv)
  obtain rfl := Option.some.inj ((show Number.parseDecimal32 "3".toList = some 3 by
    decide +kernel).symm.trans hk)
  decide

/-- Nested references, a loop, and the last element of an array. -/
theorem setup_realises_sought :
    PathState.enter searchMethod true ["list", "keys"] = .ok searchEntry ∧
      Follows (Conduct.ownSymbols nodeClasses) ⟨searchEntry, []⟩ soughtSession ∧
      soughtSession.state.condition.clauses.map Clause.kindName
        = ["expands", "expands", "aliases", "expands", "assume", "assume"] ∧
      soughtModel.Satisfies (soughtSession.state.condition.conditions.map some) ∧
      InBounds soughtModel soughtSession.state ∧
      ∃ st j, (walk (contextOf [] soughtSession.state (some soughtModel))
          soughtSession.state.condition.clauses).run {} = .ok ((), st) ∧
        runStatements nodeClasses st.statements {} = .ok j ∧ j.heap.length = 3 ∧
        ∀ ref how, .resolve ref how ∈ soughtSession.state.condition.clauses →
          j.readAt ref.origin = .ok (how.javaValue soughtSession.state.condition.clauses) := by
  refine ⟨enter_search, soughtSession_follows, by decide +kernel, soughtModel_satisfies,
    soughtModel_inBounds, ?_⟩
  obtain ⟨st, j, hrun, hstatements, hsize, -, -, hreferences, -⟩ :=
    setup_realises [] enter_search soughtSession_follows
      (fun _ _ => List.not_mem_nil) (by decide +kernel) (by decide +kernel)
      soughtSession_indices soughtModel_satisfies soughtModel_inBounds
  exact ⟨st, j, hrun, hstatements, hsize.trans (by decide +kernel), hreferences⟩

end Search

section Stray

/-- A method of one number. -/
def numberMethod : Signature := ⟨"pkg/M", "(I)V", "run"⟩

/-- The number. -/
def ownNumber : PrimSymbol := ⟨0, .int, .ofRoot "a_"⟩

/-- A number that the method is not given. -/
def otherNumber : PrimSymbol := ⟨1, .int, .ofRoot "a$"⟩

/-- The state at the entry of the method. -/
def numberEntry : PathState where
  signature := numberMethod
  isStatic := true
  frame := [⟨0, "a_", "I", .prim ownNumber⟩]
  symbols := ⟨[.prim ownNumber]⟩

/-- A path goes on with a number that is positive. -/
def assumePositive (x : PrimSymbol) (u : Session) : Session :=
  let c : Term := .binary (.comparison .gt) (.symbol x) (.const (.int 0))
  ⟨{ u.state with condition := ((PathCondition.assume (some c)).runOn u.state.condition).2 },
    u.journal⟩

/-- Where any condition may be assumed, this may be one about any number. -/
theorem assumePositive_follows {u v : Session} {classes : ClassTable} (x : PrimSymbol)
    (h : Follows (.underRules classes {} False) u v) :
    Follows (.underRules classes {} False) u (assumePositive x v) :=
  .assume (some _) (fun _ _ => trivial) h

/-- The session in which both numbers are positive. -/
def numberSession : Session :=
  assumePositive otherNumber (assumePositive ownNumber ⟨numberEntry, []⟩)

/-- Values for both. -/
def numberModel : Model :=
  (Model.empty.insert 0 (.int 1)).insert 1 (.int 2)

theorem enter_number : PathState.enter numberMethod true ["a_"] = .ok numberEntry := by
  have hparameters : Descriptor.parameters numberMethod.descriptor = .ok [.typed "I"] := by cbv
  have hresult : Descriptor.result numberMethod.descriptor = .ok "V" := by cbv
  rw [PathState.enter, hparameters, hresult]
  rfl

theorem numberModel_satisfies :
    numberModel.Satisfies (numberSession.state.condition.conditions.map some) := by
  intro c hc
  rcases List.mem_cons.1 hc with rfl | hc
  · exact ⟨_, .boolean true, rfl, rfl, rfl⟩
  · obtain rfl := List.mem_singleton.1 hc
    exact ⟨_, .boolean true, rfl, rfl, rfl⟩

-- Both numbers are roots, and no array has an element at a root.
theorem numberModel_inBounds : InBounds numberModel numberSession.state := by
  rintro x ⟨c, hc, hx⟩ o i k n v horigin
  have hsteps : x.origin.steps = [] := by
    rcases List.mem_cons.1 hc with rfl | hc
    · cases hx with
      | occurs hx => rw [List.mem_singleton.1 hx]; rfl
    · obtain rfl := List.mem_singleton.1 hc
      cases hx with
      | occurs hx => rw [List.mem_singleton.1 hx]; rfl
  rw [horigin] at hsteps
  exact absurd hsteps (List.append_ne_nil_of_right_ne_nil _ (List.cons_ne_nil _ _))

/-- A condition need not be about symbols of the path. Then a variable may be declared twice,
    although the method has one variable only. -/
theorem stray_symbol_redeclared :
    PathState.enter numberMethod true ["a_"] = .ok numberEntry ∧
      Follows (.underRules ⟨[]⟩ {} False) ⟨numberEntry, []⟩ numberSession ∧
      (numberSession.state.frame.map fun v => rootVariable v.name).Nodup ∧
      numberSession.state.DistinctIndices ∧
      numberModel.Satisfies (numberSession.state.condition.conditions.map some) ∧
      InBounds numberModel numberSession.state ∧
      ∃ st, (walk (contextOf [] numberSession.state (some numberModel))
          numberSession.state.condition.clauses).run {} = .ok ((), st) ∧
        runStatements ⟨[]⟩ st.statements {} = .error (.redeclared "__a_") := by
  refine ⟨enter_number, assumePositive_follows _ (assumePositive_follows _ (.refl _)),
    by decide +kernel, fun p o ho => ?_, numberModel_satisfies, numberModel_inBounds, _, rfl,
    by decide +kernel⟩
  -- There are no objects.
  obtain ⟨n, -, hget⟩ := Option.bind_eq_some_iff.1 ho
  cases hget

end Stray

end TestCase

end PathWitness
