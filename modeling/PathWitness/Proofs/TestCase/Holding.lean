import PathWitness.Proofs.Evaluation
import PathWitness.Proofs.TestCase.Addressing
import PathWitness.Proofs.TestCase.Placement

/-!
# What a Running Test Holds

After the statements for some of the clauses, a test holds the values of the
symbols that these clauses are about, each in its place, and one object for each
expansion among them. Since symbols have places of their own, a write to the
place of one symbol leaves all others as they are.

What is at the origin of a symbol can then be read: the references on the way
were expanded by earlier clauses, so none of them is null, the objects have the
slots that the path has used, and the model keeps indices within bounds.

## Main definitions

* `InBounds`: The elements that a path mentions are within their arrays.
* `Realisable`: What a test needs of a path and of a model.
* `Settled`: A symbol has a value by now.
* `Known`: What a place holds by now.
* `Formed`, `Forms`: What the objects are.
* `Holds`: A running test holds what it should, and no other variables.

## Theorems

* `Holds.put`, `Holds.allocate`: A write, and a new object.
* `Forms.locate`: A step to a slot passes its checks.
* `readAt_of_place`: The value of a symbol is read at its origin.
-/

namespace PathWitness

open TestCase (Occupies)

section Anchors

variable {classes : ClassTable} {s : PathState} {done : List Clause} {x : Symbol}

/-- The slots of an object are steps of chains. -/
theorem Offers.chainStep? {type : String} {a : Accessor} (h : Offers classes type a) :
    a.chainStep?.isSome := by
  cases h with
  | field harray hf => rfl
  | element harray hi =>
      obtain ⟨k, hk⟩ := TestCase.exists_index hi
      rw [Accessor.chainStep?, hk]
      rfl

/-- A symbol that hangs on clauses can be addressed and has a place, unless it is
    the length of an array. -/
theorem Anchored.addressed (hdone : ∀ c ∈ done, c ∈ s.condition.clauses)
    (h : Anchored classes s.frame done x) :
    (x.origin.Walkable ∧ ∃ π, Occupies s.condition.clauses x π) ∨
      x.origin.last? = some .length ∧ ∃ n, x = .prim n := by
  induction h with
  | root hv horigin =>
      refine .inl ⟨fun a ha => ?_, _, .root (by rw [horigin]; rfl)⟩
      rw [horigin] at ha
      exact absurd ha List.not_mem_nil
  | slot _ hclause horigin ha _ ih =>
      rcases ha with hoffers | ⟨rfl, -, hprim⟩
      · rcases ih with ⟨hwalk, -⟩ | ⟨-, n, hn⟩
        · refine .inl ⟨fun a ha => ?_, ?_⟩
          · rw [horigin] at ha
            rcases List.mem_append.1 ha with ha | ha
            · exact hwalk a ha
            · rw [List.mem_singleton.1 ha]
              exact hoffers.chainStep?
          · cases hoffers with
            | field harray hf => exact ⟨_, .field (hdone _ hclause) horigin⟩
            | element harray hi =>
                obtain ⟨k, hk⟩ := TestCase.exists_index hi
                exact ⟨_, .element (hdone _ hclause) horigin hk⟩
        · cases hn
      · refine .inr ⟨?_, hprim⟩
        rw [horigin, Origin.last?_push]

/-- What hangs on clauses starts at a variable. -/
theorem Anchored.root_name (h : Anchored classes s.frame done x) :
    ∃ v ∈ s.frame, x.origin.root = v.name := by
  induction h with
  | root hv horigin => exact ⟨_, hv, by rw [horigin]; rfl⟩
  | slot _ _ horigin _ _ ih =>
      rw [horigin]
      exact ih

/-- What is nested lies behind a reference at its root, which was expanded. -/
theorem Anchored.root_expanded (h : Anchored classes s.frame done x)
    (hnested : x.origin.steps ≠ []) : ∃ r p type, .resolve r (.fresh p type) ∈ done ∧
      r.origin = .ofRoot x.origin.root := by
  induction h with
  | root hv horigin =>
      rw [horigin] at hnested
      exact absurd rfl hnested
  | @slot x base p type a _ hclause horigin _ _ ih =>
      rw [horigin]
      by_cases hbase : base.origin.steps = []
      · exact ⟨base, p, type, hclause, by rw [Origin.ofRoot, Origin.mk.injEq]; exact ⟨rfl, hbase⟩⟩
      · exact ih hbase

theorem Anchored.root_mem {roots : List String}
    (hroots : ∀ ref how, .resolve ref how ∈ done → ref.origin.steps = [] →
      ref.origin.root ∈ roots)
    (h : Anchored classes s.frame done x) (hnested : x.origin.steps ≠ []) :
    x.origin.root ∈ roots := by
  obtain ⟨r, p, type, hclause, horigin⟩ := h.root_expanded hnested
  have hmem := hroots r _ hclause (by rw [horigin]; rfl)
  rwa [horigin] at hmem

end Anchors

namespace TestCase

/-- A clause of the path mentions a symbol. -/
def Mentioned (s : PathState) (x : Symbol) : Prop :=
  ∃ c ∈ s.condition.clauses, c.Mentions x

/-- The elements that a path mentions have indices below the lengths that a model
    gives to their arrays. -/
def InBounds (m : Model) (s : PathState) : Prop :=
  ∀ x, Mentioned s x → ∀ o i k n v, x.origin = Origin.push o (.index i) →
    Number.parseDecimal32 i.toList = some k →
    s.symbols.find? (o.push .length) = some (.prim n) → m.get? n.number = some v →
    k < (v.convert .int).toInt64.toInt

/-- What a test needs of a path and of a model. The reflective functions take a
    field for an index if its name starts with a bracket. -/
structure Realisable (classes : ClassTable) (s : PathState) (m : Model) : Prop extends
    Layout classes s where
  fields : ∀ c, ∀ f ∈ classes.fields c, f.name.toList.head? ≠ some '['
  satisfied : m.Satisfies (s.condition.conditions.map some)
  bounds : InBounds m s

/-- A symbol has a value by now: a clause has resolved it, or it has a variable. -/
inductive Settled (s : PathState) (m : Model) (done : List Clause)
    (names : List (String × String)) : Symbol → JavaValue → Prop where
  | ref {ref : RefSymbol} {how : Resolution} (hclause : .resolve ref how ∈ done) :
    Settled s m done names (.ref ref) (how.javaValue s.condition.clauses)
  | prim {x : PrimSymbol} {c : Const} (hx : .prim x ∈ s.symbols.symbols)
    (hbound : (names.lookup x.id).isSome) (hvalue : m.get? x.number = some c) :
    Settled s m done names (.prim x) (.const (c.convert x.type))

/-- A place holds a value by now. -/
def Known (s : PathState) (m : Model) (done : List Clause) (names : List (String × String))
    (π : Place) (w : JavaValue) : Prop :=
  ∃ x, Settled s m done names x w ∧ Stores s.condition.clauses x π

/-- The form of the object that a reference is expanded to. An array has the length
    that the model gives it. -/
inductive Formed (classes : ClassTable) (s : PathState) (m : Model) (ref : RefSymbol)
    (type : String) : ObjectForm → Prop where
  | object (harray : Descriptor.isArray type = false) :
    Formed classes s m ref type (.ofClass type ((classes.fields type).map (·.name)))
  | array {n : PrimSymbol} {v : Const} {i : Int32} (harray : Descriptor.isArray type = true)
    (hfind : s.symbols.find? (ref.origin.push .length) = some (.prim n)) (htype : n.type = .int)
    (hvalue : m.get? n.number = some v) (hint : v.convert .int = .int i) (hpos : 0 ≤ i.toInt) :
    Formed classes s m ref type (.ofArray type i.toInt.toNat)

/-- The objects are there and have their forms. -/
def Forms (classes : ClassTable) (s : PathState) (m : Model) (done : List Clause)
    (j : JavaState) : Prop :=
  ∀ ref p type, .resolve ref (.fresh p type) ∈ done →
    ∃ form, Formed classes s m ref type form ∧
      j.formAt (addressOf s.condition.clauses p) = some form

/-- Places hold what they should, no other variables are declared, and the objects
    are there. -/
structure Holds (classes : ClassTable) (s : PathState) (m : Model)
    (held : Place → JavaValue → Prop) (done : List Clause) (j : JavaState) : Prop where
  values : ∀ π w, held π w → j.get? π = some w
  declared : ∀ name w, j.get? (.binding name) = some w → held (.binding name) w
  forms : Forms classes s m done j

variable {classes : ClassTable} {s : PathState} {m : Model} {held held' : Place → JavaValue → Prop}
  {done rest : List Clause} {names names' : List (String × String)} {j : JavaState}
  {x y : Symbol} {π : Place} {w : JavaValue}

namespace Holds

/-- A write to a place that holds nothing so far. -/
theorem put (h : Holds classes s m held done j) (hfree : ∀ w', ¬ held π w')
    (hplace : (j.get? π).isSome ∨ ∃ name, π = .binding name) :
    Holds classes s m (fun π' w' => held π' w' ∨ π' = π ∧ w' = w) done (j.put π w) := by
  have hself : (j.put π w).get? π = some w := by
    rcases hplace with hsome | ⟨name, rfl⟩
    · exact get?_put_self hsome
    · exact get?_put_binding
  refine ⟨fun π' w' hheld => ?_, fun name w' hget => ?_, fun ref p type hc => ?_⟩
  · rcases hheld with hheld | ⟨rfl, rfl⟩
    · have hne : π' ≠ π := fun heq => hfree w' (heq ▸ hheld)
      rw [get?_put_other hne]
      exact h.values π' w' hheld
    · exact hself
  · by_cases heq : Place.binding name = π
    · rw [heq, hself] at hget
      exact .inr ⟨heq, (Option.some.inj hget).symm⟩
    · rw [get?_put_other heq] at hget
      exact .inl (h.declared name w' hget)
  · rw [formAt_put]
    exact h.forms ref p type hc

/-- A new object changes nothing that is held. -/
theorem allocate (h : Holds classes s m held done j) (o : JavaObject) :
    Holds classes s m held done (j.allocate o) := by
  refine ⟨fun π w hheld => get?_allocate o (h.values π w hheld), fun name w hget =>
    h.declared name w hget, fun ref p type hc => ?_⟩
  obtain ⟨form, hformed, hform⟩ := h.forms ref p type hc
  exact ⟨form, hformed, formAt_allocate o hform⟩

theorem congr (h : Holds classes s m held done j) (hheld : ∀ π w, held' π w ↔ held π w) :
    Holds classes s m held' done j :=
  ⟨fun π w hπ => h.values π w ((hheld π w).1 hπ), fun name w hget =>
    (hheld _ w).2 (h.declared name w hget), h.forms⟩

/-- One more clause, whose object is there if it creates one. -/
theorem snoc (h : Holds classes s m held done j) {c : Clause}
    (hform : ∀ ref p type, c = .resolve ref (.fresh p type) →
      ∃ form, Formed classes s m ref type form ∧
        j.formAt (addressOf s.condition.clauses p) = some form) :
    Holds classes s m held (done ++ [c]) j := by
  refine ⟨h.values, h.declared, fun ref p type hc => ?_⟩
  rcases List.mem_append.1 hc with hc | hc
  · exact h.forms ref p type hc
  · exact hform ref p type (List.mem_singleton.1 hc).symm

end Holds

section Values

/-- A condition that is assumed is true under the model. -/
theorem Realisable.true_of_assume (h : Realisable classes s m) {c : Term}
    (hc : .assume c ∈ s.condition.clauses) : ∃ v, m.eval c = .ok v ∧ v.toBool = true := by
  have hmem : some c ∈ s.condition.conditions.map some :=
    List.mem_map_of_mem (List.mem_filterMap.2 ⟨_, hc, rfl⟩)
  obtain ⟨t, v, ht, heval, htrue⟩ := h.satisfied _ hmem
  obtain rfl := Option.some.inj ht
  exact ⟨v, heval, htrue⟩

/-- The symbols of a condition that is assumed have values. -/
theorem Realisable.values (h : Realisable classes s m) {c : Term}
    (hc : .assume c ∈ s.condition.clauses) {x : PrimSymbol} (hx : x ∈ c.occurrences) :
    ∃ v, m.get? x.number = some v := by
  obtain ⟨v, heval, -⟩ := h.true_of_assume hc
  obtain ⟨v, hv⟩ := Term.occurrences_of_eval c heval x hx
  unfold Model.lookup at hv
  split at hv
  · rename_i v' hget
    exact ⟨v', hget⟩
  · cases hv

theorem exists_int_of_type {c : Const} (h : c.type = .int) : ∃ i, c = .int i := by
  cases c with
  | int i => exact ⟨i, rfl⟩
  | _ => cases h

/-- The length of an array is a number that is not negative. -/
theorem Realisable.length_value (h : Realisable classes s m) {n : PrimSymbol}
    (hc : .assume (lengthCondition n) ∈ s.condition.clauses) (hint : n.type = .int) :
    ∃ v i, m.get? n.number = some v ∧ v.convert .int = .int i ∧ 0 ≤ i.toInt := by
  obtain ⟨b, heval, htrue⟩ := h.true_of_assume hc
  rcases bind_eq_ok heval with ⟨a, ha, hrest⟩
  simp only [Term.eval, Model.lookup] at ha
  cases hget : m.get? n.number with
  | none =>
      rw [hget] at ha
      cases ha
  | some v =>
      rw [hget, hint] at ha
      obtain rfl := Except.ok.inj ha
      obtain ⟨i, hvalue⟩ := exists_int_of_type (Const.type_convert .int v)
      rw [hvalue] at hrest
      obtain rfl : Const.boolean (decide ((0 : Int64) ≤ i.toInt64)) = b := Except.ok.inj hrest
      refine ⟨v, i, rfl, hvalue, ?_⟩
      have hle : (0 : Int64) ≤ i.toInt64 := by
        by_contra hneg
        rw [decide_eq_false hneg] at htrue
        exact absurd htrue (by decide)
      rw [Int64.le_iff_toInt_le, Int32.toInt_toInt64] at hle
      exact hle

end Values

/-- Clauses that come first are clauses of the path. -/
theorem subset_of_split (hclauses : s.condition.clauses = done ++ rest) :
    ∀ c ∈ done, c ∈ s.condition.clauses := by
  rw [hclauses]
  exact fun c hc => List.mem_append_left _ hc

theorem mentioned_of_split {c : Clause} (hclauses : s.condition.clauses = done ++ c :: rest)
    (hx : c.Mentions x) : Mentioned s x :=
  ⟨c, by rw [hclauses]; exact List.mem_append_right _ List.mem_cons_self, hx⟩

/-- A step to a slot that the path has used passes all checks. -/
theorem Forms.locate (h : Realisable classes s m) (hforms : Forms classes s m done j)
    (hdone : ∀ c ∈ done, c ∈ s.condition.clauses) {base : RefSymbol} {p : Int} {type : String}
    {a : Accessor} (hclause : .resolve base (.fresh p type) ∈ done)
    (horigin : x.origin = base.origin.push a) (hoffers : Offers classes type a)
    (hmentioned : Mentioned s x) :
    ∃ step π, a.chainStep? = some step ∧ Occupies s.condition.clauses x π ∧
      j.locate (.object (addressOf s.condition.clauses p)) step = .ok π ∧ (j.get? π).isSome := by
  obtain ⟨form, hformed, hform⟩ := hforms base p type hclause
  cases hoffers with
  | @field f harray hf =>
      cases hformed with
      | object =>
          obtain ⟨hlocate, hsome⟩ := locate_field hform (List.mem_map_of_mem hf) (h.fields _ f hf)
          exact ⟨_, _, rfl, .field (hdone _ hclause) horigin, hlocate, hsome⟩
      | array harray' => exact absurd (harray.symm.trans harray') Bool.false_ne_true
  | @element i harray hi =>
      cases hformed with
      | object harray' => exact absurd (harray'.symm.trans harray) Bool.false_ne_true
      | @array n v length _ hfind _ hvalue hint hpos =>
          obtain ⟨k, hk⟩ := exists_index hi
          -- The model keeps the index below the length it gives to the array.
          have hbound := h.bounds x hmentioned _ _ _ _ _ horigin hk hfind hvalue
          rw [hint, Const.toInt64, Int32.toInt_toInt64] at hbound
          obtain ⟨hlocate, hsome⟩ := locate_element hform (i := k) (by omega)
          refine ⟨.index k, _, ?_, .element (hdone _ hclause) horigin hk, hlocate, hsome⟩
          rw [Accessor.chainStep?, hk]
          rfl

/-- What is in the place of a symbol is read at its origin, when the references on
    the way are in their places. -/
theorem readAt_of_place (h : Realisable classes s m) (hforms : Forms classes s m done j)
    (hrefs : ∀ ref how π, .resolve ref how ∈ done → Occupies s.condition.clauses (.ref ref) π →
      j.get? π = some (how.javaValue s.condition.clauses))
    (hdone : ∀ c ∈ done, c ∈ s.condition.clauses) (hx : Anchored classes s.frame done x)
    (hmentioned : Mentioned s x) (hπ : Occupies s.condition.clauses x π) (hw : j.get? π = some w) :
    j.readAt x.origin = .ok w := by
  induction hx generalizing π w with
  | root hv horigin =>
      cases hπ with
      | root hroot =>
          rw [horigin] at hw ⊢
          exact readAt_root hw
      | field _ horigin' =>
          rw [horigin'] at horigin
          exact absurd (congrArg Origin.steps horigin) (Origin.push_ne_root _ _)
      | element _ horigin' _ =>
          rw [horigin'] at horigin
          exact absurd (congrArg Origin.steps horigin) (Origin.push_ne_root _ _)
  | @slot x base p type a hbase hclause horigin ha hmember ih =>
      -- The reference before the last step was expanded, so it is not null.
      have hread : j.readAt base.origin = .ok (.object (addressOf s.condition.clauses p)) := by
        rcases hbase.addressed hdone with ⟨-, πbase, hplace⟩ | ⟨-, n, hn⟩
        · exact ih ⟨_, hdone _ hclause, .resolved _ _⟩ hplace (hrefs _ _ _ hclause hplace)
        · cases hn
      rcases ha with hoffers | ⟨rfl, -, -⟩
      · obtain ⟨step, π', hstep, hπ', hlocate, -⟩ :=
          hforms.locate h hdone hclause horigin hoffers hmentioned
        obtain rfl := hπ.unique h.toLayout hπ'
        rw [horigin, readAt_push hread, access_eq_follow hstep, JavaState.follow, hlocate]
        simp only [bind, Except.bind, hw]
        rfl
      · -- The length of an array has no place.
        cases hπ with
        | root hroot =>
            rw [horigin] at hroot
            exact absurd hroot (Origin.push_ne_root _ _)
        | field _ horigin' => cases (Origin.push_inj (horigin.symm.trans horigin')).2
        | element _ horigin' _ => cases (Origin.push_inj (horigin.symm.trans horigin')).2

end TestCase

end PathWitness
