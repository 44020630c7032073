import PathWitness.Proofs.SymbolTable

/-!
# Symbol Tables and their Copies

A path that branches takes a copy of its symbols along, and from then on the two tables are
asked for symbols independently of each other. Everything that is known about a symbol is
filed under its identifier, so within each table an identifier must belong to one symbol,
and an origin must keep the symbol it was given first, however often tables are copied and
whatever is asked of them in which order.

Tables are numbered in the order in which they come about. The history of a program begins
with one empty table; an event asks one of the tables for a symbol, or copies one.

## Main definitions

* `Inquiry`: A demand for the symbol at an origin.
* `Event`, `tablesAfter`: What happens to tables, and the tables after it.
* `Identified`: What a table guarantees at a point of a history.

## Theorems

* `answer_supplies`: All inquiries are answered alike.
* `answer_refused_iff`: Which inquiries are refused.
* `WellFormed.find?_iff`: A table finds the symbols that it has.
* `WellFormed.nodup_ids`: Identifiers are not repeated.
* `Event.step_table`, `table_run`: What events do to a table.
* `table_untouched`: A table that is not asked stays as it is.
* `symbols_identified`: Every table of every history gives the guarantees.
-/

namespace PathWitness

theorem Prim.descriptor_inj {p q : Prim} (h : p.descriptor = q.descriptor) : p = q := by
  have hread := congrArg ofDescriptor? h
  simpa using hread

/-- The number can be read off the identifier of a symbol. -/
theorem Symbol.number_of_id {x y : Symbol} (h : x.id = y.id) : x.number = y.number := by
  cases x with
  | prim a =>
      cases y with
      | prim b => exact id_inj h
      | ref b => exact absurd h (id_ne_refId a b)
  | ref a =>
      cases y with
      | prim b => exact absurd h.symm (id_ne_refId b a)
      | ref b =>
          have hlist := congrArg String.toList h
          simp only [id, RefSymbol.id, String.toList_append] at hlist
          exact eq_of_numeral (List.append_cancel_left (List.append_cancel_right hlist))

namespace SymbolTable

/-- A demand for the symbol at an origin. -/
inductive Inquiry where
  | primitive (descriptor : String) (origin : Origin)
  | reference (descriptor : String) (origin : Origin)
  deriving Repr, DecidableEq

namespace Inquiry

/-- Where the symbol is. -/
def origin : Inquiry → Origin
  | primitive _ o => o
  | reference _ o => o

/-- The inquiry makes sense, whatever symbols there are: the type is of the right kind, and
    the origin is somewhere. -/
def isProper : Inquiry → Bool
  | primitive d o => Descriptor.isPrimitive d && !o.isEmpty
  | reference d o => Descriptor.isReferenceOrArray d && !o.isEmpty

/-- A symbol that is there can be handed out. A primitive symbol must have the type that was
    asked for, and a reference symbol must be a reference. -/
def admits : Inquiry → Symbol → Bool
  | primitive d _, .prim s => s.type.descriptor == d
  | reference _ _, .ref _ => true
  | _, _ => false

/-- The symbol that a table answers with, and the table afterwards. -/
def answer (t : SymbolTable) : Inquiry → Except SymbolError (Symbol × SymbolTable)
  | primitive d o => (t.primitive d o).map fun (s, t) => (.prim s, t)
  | reference d o => (t.reference d o).map fun (s, t) => (.ref s, t)

end Inquiry

/-- What happens to tables. -/
inductive Event where
  /-- A table is asked for a symbol. -/
  | ask (table : Nat) (inquiry : Inquiry)
  /-- A table is copied. -/
  | clone (table : Nat)
  deriving Repr, DecidableEq

namespace Event

/-- The table that is asked. -/
def asked? : Event → Option Nat
  | ask i _ => some i
  | clone _ => none

/-- The tables after an event. A refusal leaves the table as it was, and an event at a table
    that is not there is none. -/
def step (tables : List SymbolTable) : Event → List SymbolTable
  | ask i q =>
    match tables[i]? with
    | none => tables
    | some t =>
      match q.answer t with
      | .ok (_, t) => tables.set i t
      | .error _ => tables
  | clone i => tables ++ tables[i]?.toList

end Event

/-- The tables after some events, of which the first is empty in the beginning. -/
def tablesAfter (events : List Event) : List SymbolTable :=
  events.foldl Event.step [{}]

variable {t t' : SymbolTable} {x y : Symbol} {q : Inquiry} {o : Origin} {i : Nat}
  {tables : List SymbolTable} {e : Event} {events : List Event}

theorem primitive_of_answer {d : String} (h : (Inquiry.primitive d o).answer t = .ok (x, t')) :
    ∃ s, x = .prim s ∧ t.primitive d o = .ok (s, t') := by
  cases hp : t.primitive d o with
  | error e => simp [Inquiry.answer, hp, Except.map] at h
  | ok r =>
      simp only [Inquiry.answer, hp, Except.map, Except.ok.injEq, Prod.mk.injEq] at h
      exact ⟨r.1, h.1.symm, by rw [← h.2]⟩

theorem reference_of_answer {d : String} (h : (Inquiry.reference d o).answer t = .ok (x, t')) :
    ∃ s, x = .ref s ∧ t.reference d o = .ok (s, t') := by
  cases hr : t.reference d o with
  | error e => simp [Inquiry.answer, hr, Except.map] at h
  | ok r =>
      simp only [Inquiry.answer, hr, Except.map, Except.ok.injEq, Prod.mk.injEq] at h
      exact ⟨r.1, h.1.symm, by rw [← h.2]⟩

/-- An inquiry of either kind is answered with the symbol that is there, or with a new
    one. -/
theorem answer_supplies (h : q.answer t = .ok (x, t')) : Supplies t q.origin x t' := by
  cases q with
  | primitive d o =>
      obtain ⟨s, rfl, hs⟩ := primitive_of_answer h
      exact (primitive_supplies hs).1
  | reference d o =>
      obtain ⟨s, rfl, hs⟩ := reference_of_answer h
      exact reference_supplies hs

/-- An inquiry is refused if it makes no sense or there is a symbol that does not fit it. -/
theorem answer_refused_iff : (∃ e, q.answer t = .error e) ↔
    q.isProper = false ∨ ∃ y, t.find? q.origin = some y ∧ q.admits y = false := by
  cases q with
  | primitive d o =>
      simp only [Inquiry.answer, Inquiry.isProper, Inquiry.origin, SymbolTable.primitive,
        Descriptor.isPrimitive]
      cases hd : Prim.ofDescriptor? d with
      | none => simp [Except.map]
      | some p =>
          obtain rfl := Prim.descriptor_of_ofDescriptor? hd
          cases ho : o.isEmpty with
          | true => simp [Except.map]
          | false =>
              cases hfind : t.find? o with
              | none => simp [Except.map]
              | some y =>
                  cases y with
                  | prim s =>
                      have htype : s.type.descriptor = p.descriptor ↔ s.type = p :=
                        ⟨Prim.descriptor_inj, congrArg Prim.descriptor⟩
                      by_cases hs : s.type = p
                      · simp [Except.map, Inquiry.admits, hs]
                      · simp [Except.map, Inquiry.admits, htype, hs]
                  | ref s => simp [Except.map, Inquiry.admits]
  | reference d o =>
      simp only [Inquiry.answer, Inquiry.isProper, Inquiry.origin, SymbolTable.reference]
      cases hd : Descriptor.isReferenceOrArray d with
      | false => simp [Except.map]
      | true =>
          cases ho : o.isEmpty with
          | true => simp [Except.map]
          | false =>
              cases hfind : t.find? o with
              | none => simp [Except.map]
              | some y => cases y <;> simp [Except.map, Inquiry.admits]

/-- A table finds the symbols that it has, by how their origins read. -/
theorem WellFormed.find?_iff (ht : t.WellFormed) :
    t.find? o = some x ↔ x ∈ t.symbols ∧ x.origin.text = o.text := by
  constructor
  · exact fun h => ⟨mem_of_find? h, text_of_find? h⟩
  · rintro ⟨hmem, htext⟩
    have hfound := ht.found x hmem
    rwa [find?, htext] at hfound

/-- Identifiers are not repeated. -/
theorem WellFormed.nodup_ids (ht : t.WellFormed) : (t.symbols.map Symbol.id).Nodup := by
  refine List.nodup_iff_pairwise_ne.2 (List.pairwise_map.2 (List.pairwise_iff_getElem.2 ?_))
  intro i j hi hj hij hid
  have hnumber := Symbol.number_of_id hid
  rw [ht.numbered i _ (List.getElem?_eq_getElem hi), ht.numbered j _ (List.getElem?_eq_getElem hj)]
    at hnumber
  omega

/-- An origin keeps its symbol: another inquiry is refused, or it finds the symbol. -/
theorem answer_again (hfind : t.find? o = some x) (htext : q.origin.text = o.text) :
    (∃ e, q.answer t = .error e) ∨ q.answer t = .ok (x, t) := by
  have hsame : t.find? q.origin = some x := by rwa [find?, htext]
  cases hq : q.answer t with
  | error e => exact .inl ⟨e, rfl⟩
  | ok r =>
      obtain ⟨y, u⟩ := r
      cases answer_supplies hq with
      | old hfound =>
          rw [hsame] at hfound
          rw [Option.some.inj hfound]
          exact .inr rfl
      | new hnone =>
          rw [hsame] at hnone
          cases hnone

namespace Event

/-- What an event does to a table: the table is asked and answers, or it stays as it is. -/
theorem step_table (e : Event) (h : tables[i]? = some t) : ∃ t', (e.step tables)[i]? = some t' ∧
    (t' = t ∨ e.asked? = some i ∧ ∃ o x, Supplies t o x t') := by
  obtain ⟨hlt, -⟩ := List.getElem?_eq_some_iff.1 h
  cases e with
  | ask k q =>
      cases hk : tables[k]? with
      | none => exact ⟨t, by simpa only [step, hk] using h, .inl rfl⟩
      | some u =>
          cases hq : q.answer u with
          | error e => exact ⟨t, by simpa only [step, hk, hq] using h, .inl rfl⟩
          | ok r =>
              obtain ⟨x, u'⟩ := r
              simp only [step, hk, hq]
              by_cases hki : k = i
              · obtain rfl := hki
                obtain rfl : u = t := Option.some.inj (hk.symm.trans h)
                exact ⟨u', List.getElem?_set_self hlt, .inr ⟨rfl, q.origin, x, answer_supplies hq⟩⟩
              · exact ⟨t, by rwa [List.getElem?_set_ne hki], .inl rfl⟩
  | clone k => exact ⟨t, by rwa [step, List.getElem?_append_left hlt], .inl rfl⟩

/-- Events leave tables well-formed. -/
theorem step_wellFormed (e : Event) (h : ∀ t ∈ tables, t.WellFormed) :
    ∀ t ∈ e.step tables, t.WellFormed := by
  cases e with
  | ask k q =>
      cases hk : tables[k]? with
      | none => simpa only [step, hk] using h
      | some u =>
          cases hq : q.answer u with
          | error e => simpa only [step, hk, hq] using h
          | ok r =>
              obtain ⟨x, u'⟩ := r
              simp only [step, hk, hq]
              intro t ht
              rcases List.mem_or_eq_of_mem_set ht with ht | rfl
              · exact h t ht
              · exact (answer_supplies hq).wellFormed (h u (List.mem_of_getElem? hk))
  | clone k =>
      intro t ht
      rcases List.mem_append.1 ht with ht | ht
      · exact h t ht
      · exact h t (List.mem_of_getElem? (Option.mem_toList.1 ht))

/-- A copy is the last table, and the table that was copied stays as it is. -/
theorem step_clone (h : tables[i]? = some t) :
    ((clone i).step tables)[tables.length]? = some t ∧ ((clone i).step tables)[i]? = some t := by
  obtain ⟨hlt, -⟩ := List.getElem?_eq_some_iff.1 h
  rw [step, h, List.getElem?_append_left hlt, h]
  exact ⟨by simp, rfl⟩

end Event

/-- A table is still there after some events, and it has lost nothing. -/
theorem table_run (events : List Event) (h : tables[i]? = some t) :
    ∃ t', (events.foldl Event.step tables)[i]? = some t' ∧ t.symbols <+: t'.symbols := by
  induction events generalizing tables t with
  | nil => exact ⟨t, h, List.prefix_refl _⟩
  | cons e rest ih =>
      obtain ⟨t₁, ht₁, hchange⟩ := e.step_table h
      obtain ⟨t', ht', hgrows⟩ := ih ht₁
      refine ⟨t', ht', List.IsPrefix.trans ?_ hgrows⟩
      rcases hchange with rfl | ⟨-, o, x, hsupplies⟩
      · exact List.prefix_refl _
      · exact hsupplies.grows

/-- A table that is not asked stays as it is, whatever happens to the others. -/
theorem table_untouched (huntouched : ∀ e ∈ events, e.asked? ≠ some i)
    (h : tables[i]? = some t) : (events.foldl Event.step tables)[i]? = some t := by
  induction events generalizing tables with
  | nil => exact h
  | cons e rest ih =>
      obtain ⟨t', ht', rfl | ⟨hasked, -⟩⟩ := e.step_table h
      · exact ih (fun e he => huntouched e (List.mem_cons_of_mem _ he)) ht'
      · exact absurd hasked (huntouched e List.mem_cons_self)

theorem tablesAfter_append (events later : List Event) :
    tablesAfter (events ++ later) = later.foldl Event.step (tablesAfter events) :=
  List.foldl_append

/-- Every table of every history is well-formed. -/
theorem tablesAfter_wellFormed (events : List Event) : ∀ t ∈ tablesAfter events, t.WellFormed := by
  have hrun : ∀ (events : List Event) (tables : List SymbolTable), (∀ t ∈ tables, t.WellFormed) →
      ∀ t ∈ events.foldl Event.step tables, t.WellFormed := by
    intro events
    induction events with
    | nil => exact fun tables h => h
    | cons e rest ih => exact fun tables h => ih _ (e.step_wellFormed h)
  exact hrun events [{}] fun t ht => List.mem_singleton.1 ht ▸ .empty

/-- What the table with number `i` guarantees after some events. -/
structure Identified (events : List Event) (i : Nat) (t : SymbolTable) : Prop where
  /-- The number of a symbol is its position in the order of creation. -/
  numbered : ∀ (k : Nat) x, t.symbols[k]? = some x → x.number = k
  /-- No identifier belongs to two symbols. -/
  ids : (t.symbols.map Symbol.id).Nodup
  /-- At an origin the table finds the one symbol whose origin reads like it. -/
  found : ∀ o x, t.find? o = some x ↔ x ∈ t.symbols ∧ x.origin.text = o.text
  /-- An answer is the symbol at the origin, or a new symbol that is numbered next. -/
  answered : ∀ (q : Inquiry) x t', q.answer t = .ok (x, t') →
    t.find? q.origin = some x ∧ t' = t ∨
    t.find? q.origin = none ∧ x.number = t.symbols.length ∧ x.origin = q.origin ∧
      t'.symbols = t.symbols ++ [x]
  /-- A primitive symbol has the type that it was asked for in. -/
  primitive : ∀ d o x t', (Inquiry.primitive d o).answer t = .ok (x, t') →
    ∃ s, x = .prim s ∧ s.type.descriptor = d
  /-- A reference symbol is given where one was asked for. -/
  reference : ∀ d o x t', (Inquiry.reference d o).answer t = .ok (x, t') → ∃ s, x = .ref s
  /-- Whatever happens later, a symbol is found where it was, and an inquiry at its origin is
      refused or answered with it. -/
  kept : ∀ later, ∃ t', (tablesAfter (events ++ later))[i]? = some t' ∧
    t.symbols <+: t'.symbols ∧ ∀ o x, t.find? o = some x → t'.find? o = some x ∧
      ∀ q : Inquiry, q.origin.text = o.text →
        (∃ e, q.answer t' = .error e) ∨ q.answer t' = .ok (x, t')
  /-- An inquiry is refused only if it makes no sense, or if there is a symbol that does not
      fit it. -/
  refusal : ∀ q : Inquiry, (∃ e, q.answer t = .error e) ↔
    q.isProper = false ∨ ∃ y, t.find? q.origin = some y ∧ q.admits y = false
  /-- A refusal changes nothing. -/
  refused : ∀ (q : Inquiry) e, q.answer t = .error e →
    tablesAfter (events ++ [.ask i q]) = tablesAfter events
  /-- A copy and what it was taken from answer alike until they are asked themselves, so they
      number the next new symbol alike. -/
  cloned : ∀ later,
    ((∀ e ∈ later, e.asked? ≠ some (tablesAfter events).length) →
      (tablesAfter (events ++ .clone i :: later))[(tablesAfter events).length]? = some t) ∧
    ((∀ e ∈ later, e.asked? ≠ some i) →
      (tablesAfter (events ++ .clone i :: later))[i]? = some t)

/-- Every table of every history gives the guarantees. -/
theorem symbols_identified (events : List Event) (i : Nat) (t : SymbolTable)
    (h : (tablesAfter events)[i]? = some t) : Identified events i t where
  numbered := (tablesAfter_wellFormed events t (List.mem_of_getElem? h)).numbered
  ids := (tablesAfter_wellFormed events t (List.mem_of_getElem? h)).nodup_ids
  found := fun _ _ => (tablesAfter_wellFormed events t (List.mem_of_getElem? h)).find?_iff
  answered := fun q x t' hq => by
    cases answer_supplies hq with
    | old hfind => exact .inl ⟨hfind, rfl⟩
    | new hnone hnumber horigin hnamed => exact .inr ⟨hnone, hnumber, horigin, rfl⟩
  primitive := fun d o x t' hq => by
    obtain ⟨s, rfl, hs⟩ := primitive_of_answer hq
    exact ⟨s, rfl, Prim.descriptor_of_ofDescriptor? (primitive_supplies hs).2⟩
  reference := fun d o x t' hq => by
    obtain ⟨s, rfl, -⟩ := reference_of_answer hq
    exact ⟨s, rfl⟩
  kept := fun later => by
    obtain ⟨t', ht', hgrows⟩ := table_run later h
    refine ⟨t', by rwa [tablesAfter_append], hgrows, fun o x hfind => ?_⟩
    have hstill := find?_mono hgrows hfind
    exact ⟨hstill, fun q htext => answer_again hstill htext⟩
  refusal := fun _ => answer_refused_iff
  refused := fun q e hq => by
    simp only [tablesAfter_append, List.foldl_cons, List.foldl_nil, Event.step, h, hq]
  cloned := fun later => by
    obtain ⟨hcopy, hsource⟩ := Event.step_clone h
    rw [tablesAfter_append, List.foldl_cons]
    exact ⟨fun hlater => table_untouched hlater hcopy, fun hlater => table_untouched hlater hsource⟩

/-- A list and its size are asked for, the table is copied, and both tables are asked for
    another variable. -/
def copiedHistory : List Event :=
  let list : Origin := .ofRoot "x"
  let other : Inquiry := .primitive "I" (.ofRoot "n")
  [.ask 0 (.primitive "I" (list.push (.field "size"))), .ask 0 (.reference "Lpkg/A;" list),
    .clone 0, .ask 0 other, .ask 1 (.primitive "J" list), .ask 1 other]

/-- The copy refuses a long where the list is, and it numbers the variable like the
    original. -/
theorem symbols_identified_copy : ∃ t, (tablesAfter copiedHistory)[1]? = some t ∧
    (tablesAfter copiedHistory)[0]? = some t ∧
    t.symbols.map Symbol.id = ["\x7bV0\x7d", "\x7bR1\x7d", "\x7bV2\x7d"] ∧
    Identified copiedHistory 1 t := by
  have hcopy : (tablesAfter copiedHistory)[1]? = some ⟨[
      .prim ⟨0, .int, (Origin.ofRoot "x").push (.field "size")⟩,
      .ref ⟨1, "Lpkg/A;", .ofRoot "x"⟩, .prim ⟨2, .int, .ofRoot "n"⟩]⟩ := by decide +kernel
  exact ⟨_, hcopy, by decide +kernel, by decide +kernel, symbols_identified _ _ _ hcopy⟩

end SymbolTable

end PathWitness
