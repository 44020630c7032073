import Mathlib.Data.List.Nodup
import PathWitness.Proofs.Obeys
import PathWitness.Proofs.PathState.Change

/-!
# Reading Finds Every Symbol at its Origin

Reading a value walks through the heap and may create symbols of array elements
on its way. Whatever is asked for, and whether or not the walk succeeds, the
state it leaves is coherent and a value it gives is a symbol of the path.

In a coherent state no symbol has to be created to read one that is there: the
walk along the origin of a symbol goes through the references before it, each of
which was expanded to the object that holds the next.

## Main definitions

* `PathState.Reads`: What holds of the outcome of reading.

## Theorems

* `runOn_walkFrom_cons`: One step of a walk.
* `runOn_lookup`: Where reading starts.
* `lookup_obeys`: Reading does to a state what creating elements does.
* `lookup_of_ended`: Reading leaves a path that has ended as it is.
* `fill_spec`: What creating an element comes to.
* `fill_cases`, `walkFrom_changes`, `lookup_changes`: Reading creates elements of
  arrays and changes nothing else.
* `lookup_reads`: Reading keeps a state coherent.
* `walkFrom_append`: A walk goes on where its first part has ended.
* `walkFrom_symbol`: The walk along the origin of a symbol ends at the symbol.
* `lookup_symbol`: Every symbol is read at its origin, and nothing changes.
-/

namespace PathWitness

theorem Target.ofPosition_of_pos {p : Int} (hp : 1 ≤ p) : Target.ofPosition p = .object p :=
  if_neg (by simp only [Target.nullPosition]; omega)

/-- A step starts at an object of the heap. -/
theorem Heap.get?_of_follow {h : Heap} {deref : Reference → Except HeapError Target} {i : Nat}
    {a : Accessor} {v : Option Value} {p : Int} {o : HeapObject}
    (hfollow : h.follow deref i a v = .ok (p, o)) : h.get? p = some o := by
  unfold follow at hfollow
  split at hfollow
  · rcases bind_eq_ok hfollow with ⟨target, _, htarget⟩
    cases target with
    | null => exact absurd htarget (by simp only [reduceCtorEq, not_false_eq_true])
    | object q =>
        rcases bind_eq_ok htarget with ⟨o', hget, hpair⟩
        obtain ⟨rfl, rfl⟩ := Prod.mk.inj (Except.ok.inj hpair)
        exact get?_of_get hget
  · exact absurd hfollow (by simp only [reduceCtorEq, not_false_eq_true])

namespace PathState

variable {classes : ClassTable} (may : PathState → Term → Prop) {s s' : PathState}
  {v w : Option Value}

/-- What holds of the outcome of reading: the state is coherent and has the
    symbols it had, and a value is a symbol of it. -/
structure Reads (classes : ClassTable) (s : PathState)
    (r : Except LookupError (Option Value) × PathState) : Prop where
  coherent : r.2.Coherent classes
  grows : s.symbols.symbols <+: r.2.symbols.symbols
  known : ∀ v, r.1 = .ok v → ∃ x ∈ r.2.symbols.symbols, v = some (.ofSymbol x)

/-- An element that is created on reading is one of an array that was reached
    from a root. -/
theorem canFill_cases {o : HeapObject} {a : Accessor} (h : s.canFill o a = true) :
    ∃ i, a = .index i ∧ o.isArray = true ∧ o.origin.isEmpty = false ∧ isElementIndex i = true := by
  cases a with
  | index i =>
      simp only [canFill, Bool.and_eq_true, Bool.not_eq_true'] at h
      exact ⟨i, rfl, h.1.1.1, h.1.1.2, h.1.2⟩
  | field name => exact absurd h (by simp only [canFill, Bool.false_eq_true, not_false_eq_true])
  | length => exact absurd h (by simp only [canFill, Bool.false_eq_true, not_false_eq_true])

/-- The symbol of an element is created and written, or nothing changes. -/
theorem fill_spec {p : Int} {o : HeapObject} (hobject : s.heap.get? p = some o) (a : Accessor) :
    (∃ e, (fill p o a).runOn s = (.error e, s)) ∨
      ∃ type x t o', s.canFill o a = true ∧ Descriptor.member o.type = .ok type ∧
        symbolOf s.symbols type (o.origin.push a) = .ok (x, t) ∧
        o.set a (some (.ofSymbol x)) = .ok o' ∧
        (fill p o a).runOn s = (.ok (some (.ofSymbol x)),
          { s with symbols := t, heap := s.heap.replace p o' }) := by
  unfold fill
  simp only [PathM.runOn_bind, PathM.runOn_get, andThen_ok]
  by_cases hfill : s.canFill o a = true
  · rcases canFill_cases hfill with ⟨i, rfl, harray, -, -⟩
    simp only [hfill, Bool.not_true, Bool.false_eq_true, if_false, PathM.runOn_bind,
      PathM.runOn_pure, PathM.runOn_ofExcept]
    cases hmember : Descriptor.member o.type with
    | error e => exact .inl ⟨_, rfl⟩
    | ok type =>
        simp only [Except.mapError, andThen_ok]
        cases hsymbol : symbolOf s.symbols type (o.origin.push (.index i)) with
        | error e => exact .inl ⟨_, rfl⟩
        | ok r =>
            rcases r with ⟨x, t⟩
            have hset : o.set (.index i) (some (.ofSymbol x)) = .ok _ := if_pos harray
            simp only [andThen_ok, Heap.write_eq hobject hset, PathM.runOn_set]
            exact .inr ⟨type, x, t, _, trivial, rfl, hsymbol, hset, rfl⟩
  · simp only [hfill, Bool.not_false, if_true, PathM.runOn_throw, PathM.runOn_bind, andThen_error]
    exact .inl ⟨_, rfl⟩

/-- The symbol of an element that is not there is created, or nothing changes. -/
theorem fill_cases (classes : ClassTable) {p : Int} {o : HeapObject} {a : Accessor}
    {fault : SlotFault}
    (hobject : s.heap.get? p = some o) (hget : o.get a = .error fault) :
    (∃ e, (fill p o a).runOn s = (.error e, s)) ∨
      ∃ x s', (fill p o a).runOn s = (.ok (some (.ofSymbol x)), s') ∧ Change classes may s s' ∧
        x ∈ s'.symbols.symbols := by
  rcases fill_spec hobject a with hfailed | ⟨type, x, t, o', hfill, hmember, hsymbol, hset, hrun⟩
  · exact .inl hfailed
  · rcases canFill_cases hfill with ⟨i, rfl, harray, hnamed, hi⟩
    have hsupplies := SymbolTable.symbolOf_supplies hsymbol
    -- The slot is empty, since it could not be read.
    have hkept : ∀ key w, o.Names (.index i) key → o.slot? key = some w →
        w = some (.ofSymbol x) := by
      intro key w hkey hslot
      rw [HeapObject.get_of_slot hkey hslot] at hget
      exact absurd hget (by simp only [reduceCtorEq, not_false_eq_true])
    have htype : x ∈ s.symbols.symbols ∨ Descriptor.member o.type = .ok x.type := by
      rw [hmember]
      exact (SymbolTable.symbolOf_type hsymbol).imp_right fun heq => congrArg _ heq.symm
    exact .inr ⟨x, _, hrun, .written hobject hnamed (.element harray hi) hsupplies hset hkept
      (fun _ _ => htype), hsupplies.mem⟩

/-- One step of a walk. -/
theorem runOn_walkFrom_cons (i : Nat) (v : Option Value) (a : Accessor) (rest : List Accessor)
    (s : PathState) : (walkFrom i v (a :: rest)).runOn s =
      match s.heap.follow s.deref i a v with
      | .error e => (.error (.heap e), s)
      | .ok (p, o) =>
        match o.get a with
        | .ok w => (walkFrom (i + 1) w rest).runOn s
        | .error _ => andThen ((fill p o a).runOn s) fun w s' =>
            (walkFrom (i + 1) w rest).runOn s' := by
  rw [walkFrom]
  simp only [PathM.runOn_bind, PathM.runOn_get, andThen_ok, PathM.runOn_ofExcept]
  cases s.heap.follow s.deref i a v with
  | error e => rfl
  | ok r =>
      simp only [Except.mapError, andThen_ok]
      cases r.2.get a with
      | ok w => rfl
      | error fault => rw [PathM.runOn_bind]

/-- Reading starts at a variable or finds a symbol in the table. -/
theorem runOn_lookup (o : Origin) (s : PathState) : (lookup o).runOn s =
    match s.checkReadable with
    | .error e => (.error (.access e), s)
    | .ok _ =>
      match s.binding? o.root with
      | some v => (walkFrom 0 (some (.ofSymbol v.value)) o.steps).runOn s
      | none =>
        match s.symbols.find? o with
        | some x => (.ok (some (.ofSymbol x)), s)
        | none => (.error (.noRoot o), s) := by
  unfold lookup
  simp only [PathM.runOn_bind, PathM.runOn_get, andThen_ok, PathM.runOn_ofExcept]
  cases s.checkReadable with
  | error e => rfl
  | ok _ =>
      simp only [Except.mapError, andThen_ok]
      cases s.binding? o.root with
      | some v => rfl
      | none => cases s.symbols.find? o <;> rfl

theorem walkFrom_obeys {R : PathState → PathState → Prop} (hR : Composes R)
    (hfill : ∀ s p o a fault, s.heap.get? p = some o → o.get a = .error fault →
      R s ((fill p o a).runOn s).2) (i : Nat) (v : Option Value) (steps : List Accessor)
    (s : PathState) : R s ((walkFrom i v steps).runOn s).2 := by
  induction steps generalizing s i v with
  | nil => exact hR.refl s
  | cons a rest ih =>
      rw [runOn_walkFrom_cons]
      cases hfollow : s.heap.follow s.deref i a v with
      | error e => exact hR.refl s
      | ok r =>
          cases hget : r.2.get a with
          | ok w => simpa only [hget] using ih (i + 1) w s
          | error fault =>
              have hcreated := hfill s r.1 r.2 a fault (Heap.get?_of_follow hfollow) hget
              simp only [hget]
              rcases hrun : (fill r.1 r.2 a).runOn s with ⟨e | w, s'⟩
              · rw [hrun] at hcreated
                exact hcreated
              · rw [hrun] at hcreated
                exact hR.trans hcreated (ih (i + 1) w s')

/-- Reading does to a state what creating elements does. -/
theorem lookup_obeys {R : PathState → PathState → Prop} (hR : Composes R)
    (hfill : ∀ s p o a fault, s.heap.get? p = some o → o.get a = .error fault →
      R s ((fill p o a).runOn s).2) (o : Origin) (s : PathState) :
    R s ((lookup o).runOn s).2 := by
  rw [runOn_lookup]
  cases s.checkReadable with
  | error e => exact hR.refl s
  | ok _ =>
      cases s.binding? o.root with
      | some x => exact walkFrom_obeys hR hfill 0 _ o.steps s
      | none => cases s.symbols.find? o <;> exact hR.refl s

/-- Nothing is created on a path that has ended. -/
theorem fill_of_ended (s : PathState) (p : Int) (o : HeapObject) (a : Accessor)
    (h : s.status ≠ .active) : ((fill p o a).runOn s).2 = s := by
  have hfill : s.canFill o a = false := by
    cases a <;> simp [canFill, h]
  simp only [fill, PathM.runOn_bind, PathM.runOn_get, andThen_ok, hfill, Bool.not_false, if_true,
    PathM.runOn_throw, andThen_error]

/-- Reading leaves a path that has ended as it is. -/
theorem lookup_of_ended (h : s.status ≠ .active) (o : Origin) : ((lookup o).runOn s).2 = s := by
  have hcomposes : Composes fun s t : PathState => s.status ≠ .active → t = s :=
    ⟨fun _ _ => rfl, fun ht hu hs => by
      obtain rfl := ht hs
      exact hu hs⟩
  exact lookup_obeys hcomposes (fun s p o a _ _ _ => fill_of_ended s p o a) o s h

/-- A walk changes a state by creating elements only, and comes to a symbol. -/
theorem walkFrom_changes (h : s.Coherent classes)
    (hv : ∃ x ∈ s.symbols.symbols, v = some (.ofSymbol x)) (i : Nat) (steps : List Accessor) :
    Changes classes may s ((walkFrom i v steps).runOn s).2 ∧
      ∀ w, ((walkFrom i v steps).runOn s).1 = .ok w →
        ∃ x ∈ ((walkFrom i v steps).runOn s).2.symbols.symbols, w = some (.ofSymbol x) := by
  induction steps generalizing s v i with
  | nil => exact ⟨.refl s, fun w hw => by rwa [← Except.ok.inj hw]⟩
  | cons a rest ih =>
      rw [runOn_walkFrom_cons]
      cases hfollow : s.heap.follow s.deref i a v with
      | error e => exact ⟨.refl s, fun w hw => absurd hw (by simp only [reduceCtorEq,
          not_false_eq_true])⟩
      | ok r =>
          rcases r with ⟨p, o⟩
          have hobject := Heap.get?_of_follow hfollow
          cases hget : o.get a with
          | ok w =>
              simp only [hget]
              exact ih h (h.parts.value_of_get hobject hget) (i + 1)
          | error fault =>
              simp only [hget]
              rcases fill_cases may classes hobject hget with ⟨e, he⟩ | ⟨x, s', hrun, hchange, hx⟩
              · rw [he]
                exact ⟨.refl s, fun w hw => absurd hw (by simp only [andThen_error, reduceCtorEq,
                  not_false_eq_true])⟩
              · -- The element is created first, and the walk goes on from there.
                rw [hrun, andThen_ok]
                have hrest := ih (hchange.kept h).1 ⟨x, hx, rfl⟩ (i + 1)
                exact ⟨(Changes.single hchange).trans hrest.1, hrest.2⟩

/-- A walk goes on where its first part has ended. -/
theorem walkFrom_append (i : Nat) (v : Option Value) (steps rest : List Accessor) (s : PathState) :
    (walkFrom i v (steps ++ rest)).runOn s = andThen ((walkFrom i v steps).runOn s) fun w s' =>
      (walkFrom (i + steps.length) w rest).runOn s' := by
  induction steps generalizing i v s with
  | nil => rfl
  | cons a steps ih =>
      rw [List.cons_append, runOn_walkFrom_cons, runOn_walkFrom_cons, List.length_cons,
        Nat.add_comm steps.length 1, ← Nat.add_assoc]
      cases s.heap.follow s.deref i a v with
      | error e => rfl
      | ok r =>
          simp only
          cases r.2.get a with
          | ok w => exact ih (i + 1) w s
          | error fault =>
              simp only
              rcases (fill r.1 r.2 a).runOn s with ⟨e | w, s'⟩
              · rfl
              · exact ih (i + 1) w s'

/-- A reference leads to the object that was created for it. -/
theorem follow_expanded (h : s.Coherent classes) {base : RefSymbol} {p : Int} {type : String}
    {o : HeapObject} (hclause : .resolve base (.fresh p type) ∈ s.condition.clauses)
    (hobject : s.heap.get? p = some o) (i : Nat) (a : Accessor) :
    s.heap.follow s.deref i a (some (.ofSymbol (.ref base))) = .ok (p, o) := by
  have hderef : s.deref (.symbolic base) = .ok (.object p) := by
    rw [deref, h.parts.condition.resolution?_eq hclause,
      ← Target.ofPosition_of_pos (Heap.pos_of_get? hobject).1]
    rfl
  have hget : s.heap.get p = .ok o := by rw [Heap.get, hobject]
  simp only [Heap.follow, Value.ofSymbol, hderef]
  change (s.heap.get p >>= fun o => .ok (p, o)) = .ok (p, o)
  rw [hget]
  rfl

/-- The walk along the origin of a symbol ends at the symbol. -/
theorem walkFrom_symbol (h : s.Coherent classes) {x : Symbol} (hx : x ∈ s.symbols.symbols) :
    ∃ v, s.binding? x.origin.root = some v ∧
      (walkFrom 0 (some (.ofSymbol v.value)) x.origin.steps).runOn s
        = (.ok (some (.ofSymbol x)), s) := by
  -- The induction is on the number of steps: the reference that a symbol lies
  -- behind is a symbol too, and has one step less.
  induction hn : x.origin.steps.length generalizing x with
  | zero =>
      have hsteps := List.length_eq_zero_iff.1 hn
      cases h.parts.symbols x hx with
      | root _ hbound hvalue => exact ⟨_, hbound, by rw [hsteps, hvalue]; rfl⟩
      | slot horigin hclause hobject hget =>
          rw [horigin, Origin.push, List.length_append, List.length_singleton] at hn
          omega
  | succ n ih =>
      cases h.parts.symbols x hx with
      | root hsteps hbound hvalue =>
          rw [hsteps, List.length_nil] at hn
          omega
      | slot horigin hclause hobject hget =>
          rename_i base p type o a
          have hbase : (Symbol.ref base).origin.steps.length = n := by
            rw [horigin, Origin.push, List.length_append, List.length_singleton] at hn
            exact Nat.succ.inj hn
          rcases ih (h.parts.references base _ hclause) hbase with ⟨v, hbound, hwalk⟩
          refine ⟨v, by rw [horigin]; exact hbound, ?_⟩
          have hsteps : x.origin.steps = (Symbol.ref base).origin.steps ++ [a] := by
            rw [horigin]
            rfl
          -- The walk comes to `base`, and the last step finds `x` in its object.
          rw [hsteps, walkFrom_append, hwalk, andThen_ok, runOn_walkFrom_cons,
            follow_expanded h hclause hobject]
          simp only [hget]
          rfl

theorem Coherent.checkReadable (h : s.Coherent classes) : s.checkReadable = .ok () := by
  unfold PathState.checkReadable
  split
  · exact absurd ‹s.status = .released› h.readable
  · rfl

/-- Every symbol is read at its origin, and nothing changes. -/
theorem lookup_symbol (h : s.Coherent classes) {x : Symbol} (hx : x ∈ s.symbols.symbols) :
    (lookup x.origin).runOn s = (.ok (some (.ofSymbol x)), s) := by
  rcases walkFrom_symbol h hx with ⟨v, hbound, hwalk⟩
  rw [runOn_lookup, h.checkReadable, hbound]
  exact hwalk

/-- Reading changes a state by creating elements only, and what is read is a
    symbol. -/
theorem lookup_changes (h : s.Coherent classes) (o : Origin) :
    Changes classes may s ((lookup o).runOn s).2 ∧ ∀ w, ((lookup o).runOn s).1 = .ok w →
      ∃ x ∈ ((lookup o).runOn s).2.symbols.symbols, w = some (.ofSymbol x) := by
  have hfailed : ∀ e w, (.error e : Except LookupError (Option Value)) ≠ .ok w := by
    simp only [ne_eq, reduceCtorEq, not_false_eq_true, implies_true]
  rw [runOn_lookup]
  cases s.checkReadable with
  | error e => exact ⟨.refl s, fun w hw => absurd hw (hfailed _ w)⟩
  | ok _ =>
      cases hbound : s.binding? o.root with
      | some v =>
          have hv := h.parts.values v (List.mem_of_find?_eq_some hbound)
          exact walkFrom_changes may h ⟨v.value, hv, rfl⟩ 0 o.steps
      | none =>
          -- Without a variable the table may still know the origin.
          cases hfind : s.symbols.find? o with
          | some x =>
              exact ⟨.refl s, fun v hv => ⟨x, SymbolTable.mem_of_find? hfind,
                (Except.ok.inj hv).symm⟩⟩
          | none => exact ⟨.refl s, fun w hw => absurd hw (hfailed _ w)⟩

theorem lookup_reads (h : s.Coherent classes) (o : Origin) :
    Reads classes s ((lookup o).runOn s) := by
  obtain ⟨hchanges, hknown⟩ := lookup_changes (fun _ _ => True) h o
  obtain ⟨hcoherent, hgrows⟩ := hchanges.kept h
  exact ⟨hcoherent, hgrows, hknown⟩

end PathState

end PathWitness
