import PathWitness.Proofs.PathState.Reachable

/-!
# What Reading Adds

Reading creates the elements of arrays on its way, and it may fail after it has created
some. So neither success nor failure says whether a state has changed. `AddsElements`
bounds the change from outside: objects get elements behind the slots they have, symbols
are added for these, and the rest of the state stays.

An element has a symbol of its own, with one exception. Symbols are found by the text of
their origins, and a variable can have a name that reads like an element.

A walk through a state goes the same way through every state in which all that it finds is
there, as far as it comes. Two things follow. A second reading finds the elements of the
first and has nothing left to create, and whatever was read once is read again after any
other reading.

## Main definitions

* `HeapObject.NewElement`: An element that an array does not have yet, and its symbol.
* `HeapObject.Gains`: An object got elements.
* `PathState.AddsElements`: Elements were added to a state.
* `PathState.Lasts`: All that a walk can find in a state is in another one too.

## Theorems

* `lookup_addsElements`: Reading adds elements.
* `Coherent.fresh`: The symbol of a new element is new, unless another origin
  reads like its own.
* `lookup_lasts`, `lookup_again`: A reading is repeated with the same result. If it has
  succeeded, this is so wherever all that it has found is there, as after more elements
  were added.
* `lookup_effect`: The effect of reading on the states of a path.
-/

namespace PathWitness

namespace HeapObject

variable {t t' : SymbolTable} {o o' o'' : HeapObject} {i : String} {x : Symbol}

/-- An element that an array does not have yet, and the symbol of the element. The array
    is one that was reached from a root. -/
structure NewElement (t : SymbolTable) (o : HeapObject) (i : String) (x : Symbol) : Prop where
  array : o.isArray = true
  named : o.origin.isEmpty = false
  index : PathState.isElementIndex i = true
  missing : o.slot? ("[" ++ i ++ "]") = none
  found : t.find? (o.origin.push (.index i)) = some x

theorem NewElement.mono (h : NewElement t o i x) (ht : t.symbols <+: t'.symbols) :
    NewElement t' o i x :=
  { h with found := SymbolTable.find?_mono ht h.found }

/-- The slots of elements. -/
def elementSlots (elements : List (String × Symbol)) : List (String × Option Value) :=
  elements.map fun e => ("[" ++ e.1 ++ "]", some (.ofSymbol e.2))

/-- An object got elements, in slots behind those it had. -/
def Gains (t : SymbolTable) (o o' : HeapObject) : Prop :=
  ∃ added, o' = { o with slots := o.slots ++ elementSlots added } ∧
    ∀ e ∈ added, NewElement t o e.1 e.2

theorem Gains.refl (t : SymbolTable) (o : HeapObject) : Gains t o o :=
  ⟨[], by simp [elementSlots], by simp⟩

theorem slot?_append (slots : List (String × Option Value)) (key : String) :
    slot? { o with slots := o.slots ++ slots } key = (o.slot? key).or (slots.lookup key) :=
  List.lookup_append

/-- An element that is new after others were added was new before. -/
theorem Gains.newElement (h : Gains t o o') (hnew : NewElement t' o' i x) :
    NewElement t' o i x := by
  obtain ⟨added, rfl, -⟩ := h
  have hmissing := hnew.missing
  rw [slot?_append, Option.or_eq_none_iff] at hmissing
  exact { hnew with missing := hmissing.1 }

theorem Gains.mono (h : Gains t o o') (ht : t.symbols <+: t'.symbols) : Gains t' o o' := by
  obtain ⟨added, ho', hadded⟩ := h
  exact ⟨added, ho', fun e he => (hadded e he).mono ht⟩

theorem Gains.trans (h : Gains t o o') (h' : Gains t o' o'') : Gains t o o'' := by
  obtain ⟨added', rfl, hadded'⟩ := h'
  have hback : ∀ e ∈ added', NewElement t o e.1 e.2 := fun e he => h.newElement (hadded' e he)
  obtain ⟨added, rfl, hadded⟩ := h
  refine ⟨added ++ added', by simp [elementSlots], fun e he => ?_⟩
  exact (List.mem_append.1 he).elim (hadded e) (hback e)

/-- What could be read is still read. -/
theorem Gains.extends (h : Gains t o o') : o.Extends o' := by
  obtain ⟨added, rfl, -⟩ := h
  refine ⟨rfl, rfl, fun {a v} hget => ?_⟩
  rcases get_ok_cases hget with ⟨rfl, -, -, -⟩ | ⟨key, hkey, hslot⟩
  · exact hget
  · refine get_of_slot hkey ?_
    rw [slot?_append, hslot, Option.some_or]

/-- A new element is written behind the slots. -/
theorem Gains.of_set (hnew : NewElement t o i x)
    (hset : o.set (.index i) (some (.ofSymbol x)) = .ok o') : Gains t o o' := by
  have hwritten : o.set (.index i) (some (.ofSymbol x)) = .ok _ := if_pos hnew.array
  rw [hwritten, putSlot_of_missing hnew.missing] at hset
  refine ⟨[(i, x)], (Except.ok.inj hset).symm, fun e he => ?_⟩
  rw [List.mem_singleton.1 he]
  exact hnew

end HeapObject

namespace PathState

open HeapObject (NewElement Gains)

variable {classes : ClassTable} {s s' s'' : PathState} {o : Origin}
  {r : Except LookupError (Option Value)}

/-- Elements were added to a state, with symbols of their own, and nothing else was
    changed. -/
structure AddsElements (s s' : PathState) : Prop where
  /-- Only symbols and objects are written. -/
  rest : s' = { s with symbols := s'.symbols, heap := s'.heap }
  /-- Symbols stay in their places. -/
  symbols : s.symbols.symbols <+: s'.symbols.symbols
  /-- There are no new objects. -/
  size : s'.heap.size = s.heap.size
  /-- Objects get elements and keep everything else. -/
  objects : ∀ p o, s.heap.get? p = some o → ∃ o', s'.heap.get? p = some o' ∧ Gains s'.symbols o o'
  /-- A symbol that was added is in a slot that was added, and this slot is its origin. -/
  created : ∀ x ∈ s'.symbols.symbols, x ∈ s.symbols.symbols ∨
    ∃ p o i, s.heap.get? p = some o ∧ NewElement s'.symbols o i x ∧
      x.origin = o.origin.push (.index i) ∧ s'.heap.read p (.index i) = .ok (some (.ofSymbol x))

theorem AddsElements.refl (s : PathState) : AddsElements s s :=
  ⟨rfl, List.prefix_refl _, rfl, fun _ o ho => ⟨o, ho, .refl _ o⟩, fun _ hx => .inl hx⟩

theorem AddsElements.extends (h : AddsElements s s') : s.heap.Extends s'.heap := by
  intro p o ho
  obtain ⟨o', ho', hgains⟩ := h.objects p o ho
  exact ⟨o', ho', hgains.extends⟩

/-- Elements are added in turn. -/
theorem AddsElements.trans (h : AddsElements s s') (h' : AddsElements s' s'') :
    AddsElements s s'' := by
  refine ⟨?_, h.symbols.trans h'.symbols, h'.size.trans h.size, fun p o ho => ?_, fun x hx => ?_⟩
  · rw [h'.rest, h.rest]
  · obtain ⟨o', ho', hgains⟩ := h.objects p o ho
    obtain ⟨o'', ho'', hgains'⟩ := h'.objects p o' ho'
    exact ⟨o'', ho'', (hgains.mono h'.symbols).trans hgains'⟩
  · rcases h'.created x hx with hx | ⟨p, o', i, ho', hnew, horigin, hread⟩
    · rcases h.created x hx with hx | ⟨p, o, i, ho, hnew, horigin, hread⟩
      · exact .inl hx
      · exact .inr ⟨p, o, i, ho, hnew.mono h'.symbols, horigin, h'.extends.read hread⟩
    · -- An object of the second state is one of the first, with more elements.
      obtain ⟨o, ho⟩ : ∃ o, s.heap.get? p = some o := by
        have hpos := Heap.pos_of_get? ho'
        rw [h.size] at hpos
        exact Option.isSome_iff_exists.1 (Heap.get?_isSome_iff.2 hpos)
      obtain ⟨o₁, ho₁, hgains⟩ := h.objects p o ho
      obtain rfl : o₁ = o' := Option.some.inj (ho₁.symm.trans ho')
      refine .inr ⟨p, o, i, ho, hgains.newElement hnew, ?_, hread⟩
      rw [horigin, hgains.extends.origin]

theorem AddsElements.composes : Composes AddsElements :=
  ⟨.refl, .trans⟩

/-- Creating an element adds it, or nothing. -/
theorem fill_addsElements {p : Int} {o : HeapObject} {a : Accessor} {fault : SlotFault}
    (hobject : s.heap.get? p = some o) (hget : o.get a = .error fault) :
    AddsElements s ((fill p o a).runOn s).2 := by
  rcases fill_spec hobject a with ⟨e, hrun⟩ | ⟨type, x, t, o', hfill, -, hsymbol, hset, hrun⟩
  · rw [hrun]
    exact .refl s
  · rw [hrun]
    obtain ⟨i, rfl, harray, hnamed, hi⟩ := canFill_cases hfill
    have hsupplies := SymbolTable.symbolOf_supplies hsymbol
    have hmissing : o.slot? ("[" ++ i ++ "]") = none := by
      cases hslot : o.slot? ("[" ++ i ++ "]") with
      | none => rfl
      | some w =>
          rw [HeapObject.get_of_slot ⟨rfl, fun _ _ => harray⟩ hslot] at hget
          cases hget
    have hnew : NewElement t o i x := ⟨harray, hnamed, hi, hmissing, hsupplies.find?⟩
    refine ⟨rfl, hsupplies.grows, Heap.size_replace _ _ _, fun q o₁ ho₁ => ?_, fun y hy => ?_⟩
    · rw [Heap.get?_replace hobject]
      by_cases hq : q = p
      · obtain rfl : o = o₁ := Option.some.inj (hobject.symm.trans (hq ▸ ho₁))
        exact ⟨o', if_pos hq, .of_set hnew hset⟩
      · exact ⟨o₁, by rw [if_neg hq, ho₁], .refl _ _⟩
    · rcases hsupplies.mem_cases hy with hy | ⟨rfl, horigin⟩
      · exact .inl hy
      · refine .inr ⟨p, o, i, hobject, hnew, horigin, ?_⟩
        have hwritten : (s.heap.replace p o').get? p = some o' := by
          rw [Heap.get?_replace hobject, if_pos rfl]
        exact Heap.read_of_get? hwritten (HeapObject.get_of_set hset)

theorem walkFrom_addsElements (i : Nat) (v : Option Value) (steps : List Accessor)
    (s : PathState) : AddsElements s ((walkFrom i v steps).runOn s).2 :=
  walkFrom_obeys AddsElements.composes (fun _ _ _ _ _ => fill_addsElements) i v steps s

/-- Reading adds elements to a state, whether it succeeds or fails. -/
theorem lookup_addsElements (o : Origin) (s : PathState) :
    AddsElements s ((lookup o).runOn s).2 :=
  lookup_obeys AddsElements.composes (fun _ _ _ _ _ => fill_addsElements) o s

theorem AddsElements.deref (h : AddsElements s s') : s'.deref = s.deref := by
  have hcondition : s'.condition = s.condition := by rw [h.rest]
  funext ref
  cases ref with
  | resolved t => rfl
  | symbolic ref => rw [PathState.deref, PathState.deref, hcondition]

/-- What a walk can find in a state is in another one too: variables, symbols, objects
    with what they hold, and what references lead to. -/
structure Lasts (s s' : PathState) : Prop where
  readable : s.checkReadable = .ok () → s'.checkReadable = .ok ()
  frame : s'.frame = s.frame
  symbols : s.symbols.symbols <+: s'.symbols.symbols
  heap : s.heap.Extends s'.heap
  deref : ∀ {ref target}, s.deref ref = .ok target → s'.deref ref = .ok target

theorem Lasts.trans (h : Lasts s s') (h' : Lasts s' s'') : Lasts s s'' :=
  ⟨fun hs => h'.readable (h.readable hs), h'.frame.trans h.frame, h.symbols.trans h'.symbols,
    h.heap.trans h'.heap, fun hs => h'.deref (h.deref hs)⟩

theorem AddsElements.lasts (h : AddsElements s s') : Lasts s s' where
  readable := fun hs => by
    have hstatus : s'.status = s.status := by rw [h.rest]
    have hid : s'.id = s.id := by rw [h.rest]
    rw [← hs, checkReadable, checkReadable, hstatus, hid]
  frame := by rw [h.rest]
  symbols := h.symbols
  heap := h.extends
  deref := fun hs => by rwa [h.deref]

/-- A step starts at the object it started at before. -/
theorem Lasts.follow (h : Lasts s s') {i : Nat} {a : Accessor} {v : Option Value}
    {p : Int} {o : HeapObject} (hfollow : s.heap.follow s.deref i a v = .ok (p, o)) :
    ∃ o', s'.heap.follow s'.deref i a v = .ok (p, o') ∧ o.Extends o' := by
  unfold Heap.follow at hfollow ⊢
  split at hfollow
  · obtain ⟨target, htarget, hobject⟩ := bind_eq_ok hfollow
    cases target with
    | null => cases hobject
    | object q =>
        obtain ⟨o₁, hget, hpair⟩ := bind_eq_ok hobject
        obtain ⟨rfl, rfl⟩ := Prod.mk.inj (Except.ok.inj hpair)
        obtain ⟨o', ho', hext⟩ := h.heap q o₁ (Heap.get?_of_get hget)
        have hget' : s'.heap.get q = .ok o' := by rw [Heap.get, ho']
        refine ⟨o', ?_, hext⟩
        rw [h.deref htarget]
        change (s'.heap.get q >>= fun o => .ok (q, o)) = .ok (q, o')
        rw [hget']
        rfl
  · cases hfollow

/-- A walk is repeated in the state it has left, and if it has succeeded, also in one where
    all that it has found is there. -/
theorem walkFrom_again {i : Nat} {v : Option Value} {steps : List Accessor}
    (hrun : (walkFrom i v steps).runOn s = (r, s')) (hmore : Lasts s' s'')
    (hr : (∃ w, r = .ok w) ∨ s'' = s') : (walkFrom i v steps).runOn s'' = (r, s'') := by
  induction steps generalizing s i v with
  | nil =>
      obtain ⟨rfl, rfl⟩ := Prod.mk.inj hrun
      rfl
  | cons a rest ih =>
      have hadds := walkFrom_addsElements i v (a :: rest) s
      rw [hrun] at hadds
      have hall := hadds.lasts.trans hmore
      -- A walk that fails before it has changed anything is the same walk again.
      have hstuck : ∀ e, (walkFrom i v (a :: rest)).runOn s = (.error e, s) →
          (walkFrom i v (a :: rest)).runOn s'' = (r, s'') := by
        intro e he
        obtain ⟨rfl, rfl⟩ := Prod.mk.inj (hrun.symm.trans he)
        rcases hr with ⟨w, hw⟩ | rfl
        · cases hw
        · exact he
      cases hfollow : s.heap.follow s.deref i a v with
      | error e => exact hstuck (.heap e) (by rw [runOn_walkFrom_cons, hfollow])
      | ok place =>
          rcases place with ⟨p, o⟩
          obtain ⟨o'', hfollow'', hext⟩ := hall.follow hfollow
          have hstep := runOn_walkFrom_cons i v a rest s
          rw [hfollow] at hstep
          have hstep'' := runOn_walkFrom_cons i v a rest s''
          rw [hfollow''] at hstep''
          cases hget : o.get a with
          | ok w =>
              simp only [hget] at hstep
              simp only [hext.get hget] at hstep''
              rw [hstep'']
              exact ih (hstep.symm.trans hrun)
          | error fault =>
              simp only [hget] at hstep
              have hobject := Heap.get?_of_follow hfollow
              rcases fill_spec hobject a with ⟨e, hfill⟩ | ⟨_, x, t, o', _, _, _, hset, hfill⟩
              · rw [hfill, andThen_error] at hstep
                exact hstuck e hstep
              · rw [hfill, andThen_ok] at hstep
                have hrest := hstep.symm.trans hrun
                -- The element that was created is there when the walk comes by again.
                have hcreated := walkFrom_addsElements (i + 1) (some (.ofSymbol x)) rest
                  { s with symbols := t, heap := s.heap.replace p o' }
                rw [hrest] at hcreated
                have hread := (hcreated.lasts.trans hmore).heap.read (Heap.read_of_get?
                  (by rw [Heap.get?_replace hobject, if_pos rfl]) (HeapObject.get_of_set hset))
                have hfound := Heap.get_of_read (Heap.get?_of_follow hfollow'') hread
                simp only [hfound] at hstep''
                rw [hstep'']
                exact ih hrest

/-- A reading is repeated in the state it has left, and if it has succeeded, also in one
    where all that it has found is there. -/
theorem lookup_lasts (hrun : (lookup o).runOn s = (r, s')) (hmore : Lasts s' s'')
    (hr : (∃ w, r = .ok w) ∨ s'' = s') : (lookup o).runOn s'' = (r, s'') := by
  have hall := (hrun ▸ lookup_addsElements o s : AddsElements s (r, s').2).lasts.trans hmore
  have hbound : s''.binding? o.root = s.binding? o.root := by rw [binding?, binding?, hall.frame]
  have hstuck : ∀ e, (lookup o).runOn s = (.error e, s) → (lookup o).runOn s'' = (r, s'') := by
    intro e he
    obtain ⟨rfl, rfl⟩ := Prod.mk.inj (hrun.symm.trans he)
    rcases hr with ⟨w, hw⟩ | rfl
    · cases hw
    · exact he
  have hstart := runOn_lookup o s
  have hstart'' := runOn_lookup o s''
  cases hopen : s.checkReadable with
  | error e =>
      rw [hopen] at hstart
      exact hstuck _ hstart
  | ok _ =>
      rw [hopen] at hstart
      rw [hall.readable hopen, hbound] at hstart''
      cases hroot : s.binding? o.root with
      | some v =>
          rw [hroot] at hstart hstart''
          rw [hstart'']
          exact walkFrom_again (hstart.symm.trans hrun) hmore hr
      | none =>
          rw [hroot] at hstart hstart''
          cases hfind : s.symbols.find? o with
          | none =>
              rw [hfind] at hstart
              exact hstuck _ hstart
          | some x =>
              -- More symbols do not hide the one that was found.
              rw [hfind] at hstart
              rw [SymbolTable.find?_mono hall.symbols hfind] at hstart''
              obtain ⟨rfl, rfl⟩ := Prod.mk.inj (hrun.symm.trans hstart)
              exact hstart''

/-- A new element has no symbol yet, unless one with another origin that reads the same. -/
theorem Coherent.fresh (h : s.Coherent classes) {t : SymbolTable} {p : Int} {e : HeapObject}
    {i : String} {x : Symbol} (hobject : s.heap.get? p = some e) (hnew : NewElement t e i x)
    (hold : x ∈ s.symbols.symbols) : x.origin ≠ e.origin.push (.index i) := by
  intro horigin
  cases h.parts.symbols x hold with
  | root hsteps _ _ =>
      rw [horigin] at hsteps
      exact Origin.push_ne_root _ _ hsteps
  | slot hbase hclause hholder hget =>
      obtain ⟨hsame, rfl⟩ := Origin.push_inj (hbase.symm.trans horigin)
      -- Both objects were created for the reference before the element.
      obtain ⟨ref, type, howned⟩ := h.parts.owners p e hobject hnew.named
      obtain ⟨e', he', -, hcreated, -⟩ := h.parts.clauses ref _ howned
      obtain rfl : e = e' := Option.some.inj (hobject.symm.trans he')
      obtain ⟨rfl, hfresh⟩ := h.parts.resolve_unique howned hclause (by rw [← hcreated, hsame])
      obtain ⟨rfl, -⟩ := Resolution.fresh.inj hfresh
      obtain rfl : e = _ := Option.some.inj (hobject.symm.trans hholder)
      rcases HeapObject.get_ok_cases hget with ⟨hlength, -⟩ | ⟨key, hkey, hslot⟩
      · cases hlength
      · rw [← Option.some.inj hkey.1, hnew.missing] at hslot
        cases hslot

end PathState

end PathWitness
