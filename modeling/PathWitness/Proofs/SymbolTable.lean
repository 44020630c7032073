import PathWitness.PathState
import PathWitness.Proofs.Computation
import PathWitness.Proofs.Origin

/-!
# Symbols are Found where they Were Created

A table answers a request for the symbol at an origin in one of two ways: it has
a symbol whose origin reads the same and hands that out, or it has none and
creates one. `Supplies` says so for every kind of request at once, and what
follows from a request is derived from it alone.

The number of a symbol is its position, so within one table symbols with the
same number are the same symbol. A path is told apart from others by numbers
only, which is why this matters.

## Main definitions

* `SymbolTable.WellFormed`: Numbers are positions, and every symbol is found.
* `SymbolTable.Supplies`: A request is answered from a table.
* `Symbol.suits`: A symbol can stand for values of a type.

## Theorems

* `find?_mono`, `find?_push_self`: Finding after more symbols.
* `WellFormed.eq_of_number`: A number belongs to one symbol.
* `primitive_supplies`, `reference_supplies`, `symbolOf_supplies`: All requests
  are answered alike.
* `reference_type`, `symbolOf_type`: A new symbol has the type that was asked for.
* `symbolOf_error`: A request is refused because of the symbol that is there.
* `Supplies.wellFormed`: A request leaves the table well-formed.
* `Origin.field_of_text_push`: The field can be read off an origin.
-/

namespace PathWitness

/-- A number can be read off its numeral. -/
theorem eq_of_numeral {m n : Nat} (h : (toString m).toList = (toString n).toList) : m = n := by
  simp only [Nat.toString_eq_repr, Nat.repr, String.toList_ofList] at h
  have hvalue := congrArg (Nat.ofDigitChars 10 · 0) h
  simpa only [Nat.ofDigitChars_ten_toDigits] using hvalue

/-- The number can be read off the identifier of a primitive symbol. -/
theorem id_inj {x y : PrimSymbol} (h : x.id = y.id) : x.number = y.number := by
  have hlist := congrArg String.toList h
  simp only [PrimSymbol.id, PrimSymbol.idOf, String.toList_append] at hlist
  exact eq_of_numeral (List.append_cancel_left (List.append_cancel_right hlist))

/-- Symbols of different kinds have different identifiers. -/
theorem id_ne_refId (x : PrimSymbol) (ref : RefSymbol) : x.id ≠ ref.id := by
  intro h
  have hlist := congrArg String.toList h
  simp only [PrimSymbol.id, PrimSymbol.idOf, RefSymbol.id, String.toList_append] at hlist
  exact absurd (List.cons.inj (List.cons.inj hlist).2).1 (by decide)

/-- A symbol can stand for values of a type. A reference symbol keeps the static
    type it has. -/
def Symbol.suits (type : String) : Symbol → Bool
  | prim s => Prim.ofDescriptor? type == some s.type
  | ref _ => !Descriptor.isPrimitive type

/-- The last field of an origin can be read off its text, if the rest is known. -/
theorem Origin.field_of_text_push {o : Origin} (hnamed : o.isEmpty = false) {a b : String}
    (h : (o.push (.field a)).text = (o.push (.field b)).text) : a = b := by
  rw [text_push hnamed, text_push hnamed] at h
  simpa [Accessor.text] using h

/-- A descriptor that names a primitive type is the descriptor of the type. -/
theorem Prim.descriptor_of_ofDescriptor? {d : String} {p : Prim} (h : ofDescriptor? d = some p) :
    p.descriptor = d := by
  unfold ofDescriptor? at h
  split at h
  · rename_i c hc
    have hletter : p.letter = c := by
      unfold ofLetter? at h
      split at h <;> cases h <;> rfl
    rw [descriptor, hletter, ← hc, String.ofList_toList]
  · cases h

namespace SymbolTable

variable {t t' : SymbolTable} {o : Origin} {x y : Symbol}

/-- Numbers are positions, every symbol is the one found at its origin, and
    every symbol is reached from a root. -/
structure WellFormed (t : SymbolTable) : Prop where
  /-- The number of a symbol is its position. -/
  numbered : ∀ (i : Nat) x, t.symbols[i]? = some x → x.number = i
  /-- No two symbols have origins that read the same. -/
  found : ∀ x ∈ t.symbols, t.find? x.origin = some x
  /-- Every symbol is reached from a root. -/
  named : ∀ x ∈ t.symbols, x.origin.isEmpty = false

theorem WellFormed.empty : WellFormed {} where
  numbered := fun i x h => absurd h (by simp only [List.getElem?_nil, reduceCtorEq,
    not_false_eq_true])
  found := fun x h => absurd h List.not_mem_nil
  named := fun x h => absurd h List.not_mem_nil

theorem mem_of_find? (h : t.find? o = some x) : x ∈ t.symbols :=
  List.mem_of_find?_eq_some h

theorem text_of_find? (h : t.find? o = some x) : x.origin.text = o.text := by
  have htext := List.find?_some h
  exact beq_iff_eq.1 htext

theorem mem_push : x ∈ (t.push y).symbols ↔ x ∈ t.symbols ∨ x = y := by
  rw [push, List.mem_append, List.mem_singleton]

/-- What a table finds, it still finds with more symbols. -/
theorem find?_mono (ht : t.symbols <+: t'.symbols) (h : t.find? o = some x) :
    t'.find? o = some x :=
  ht.find?_eq_some h

/-- A symbol whose origin read like no other is found there. -/
theorem find?_push_self (h : t.find? x.origin = none) : (t.push x).find? x.origin = some x := by
  have hself : (x.origin.text == x.origin.text) = true := beq_self_eq_true _
  unfold find? at h ⊢
  rw [push, List.find?_append, h, Option.none_or, List.find?_cons, hself]

/-- Within a table, a number belongs to one symbol. -/
theorem WellFormed.eq_of_number (ht : t.WellFormed) (hx : x ∈ t.symbols) (hy : y ∈ t.symbols)
    (h : x.number = y.number) : x = y := by
  rcases List.mem_iff_getElem?.1 hx with ⟨i, hi⟩
  rcases List.mem_iff_getElem?.1 hy with ⟨j, hj⟩
  have hij : i = j := by rw [← ht.numbered i x hi, ← ht.numbered j y hj, h]
  rw [← hij, hi] at hj
  exact Option.some.inj hj

theorem WellFormed.push (ht : t.WellFormed) (hnumber : x.number = t.size)
    (hnone : t.find? x.origin = none) (hnamed : x.origin.isEmpty = false) :
    (t.push x).WellFormed := by
  refine ⟨fun i y hy => ?_, fun y hy => ?_, fun y hy => ?_⟩
  · rcases getElem?_snoc.1 hy with hy | ⟨rfl, rfl⟩
    · exact ht.numbered i y hy
    · exact hnumber
  · rcases mem_push.1 hy with hy | rfl
    · exact find?_mono (List.prefix_append _ _) (ht.found y hy)
    · exact find?_push_self hnone
  · rcases mem_push.1 hy with hy | rfl
    · exact ht.named y hy
    · exact hnamed

/-- A request for the symbol at an origin is answered from a table: with the
    symbol that is there, or with a new one. -/
inductive Supplies (t : SymbolTable) (o : Origin) : Symbol → SymbolTable → Prop where
  | old {x : Symbol} (hfind : t.find? o = some x) : Supplies t o x t
  | new {x : Symbol} (hnone : t.find? o = none) (hnumber : x.number = t.size)
    (horigin : x.origin = o) (hnamed : o.isEmpty = false) : Supplies t o x (t.push x)

theorem primitive_supplies {d : String} {s : PrimSymbol} (h : t.primitive d o = .ok (s, t')) :
    Supplies t o (.prim s) t' ∧ Prim.ofDescriptor? d = some s.type := by
  unfold primitive at h
  split at h
  · exact absurd h (by simp only [reduceCtorEq, not_false_eq_true])
  · rename_i p hp
    by_cases hempty : o.isEmpty = true
    · rw [if_pos hempty] at h
      exact absurd h (by simp only [reduceCtorEq, not_false_eq_true])
    · rw [if_neg hempty] at h
      -- A symbol that is there is handed out only if it has the type asked for.
      split at h
      · rename_i s' hfind
        by_cases htype : s'.type = p
        · rw [if_pos htype] at h
          obtain ⟨rfl, rfl⟩ := Prod.mk.inj (Except.ok.inj h)
          exact ⟨.old hfind, by rw [hp, htype]⟩
        · rw [if_neg htype] at h
          exact absurd h (by simp only [reduceCtorEq, not_false_eq_true])
      · exact absurd h (by simp only [reduceCtorEq, not_false_eq_true])
      · rename_i hnone
        obtain ⟨rfl, rfl⟩ := Prod.mk.inj (Except.ok.inj h)
        exact ⟨.new hnone rfl rfl (Bool.not_eq_true _ ▸ hempty), hp⟩

theorem reference_supplies {d : String} {s : RefSymbol} (h : t.reference d o = .ok (s, t')) :
    Supplies t o (.ref s) t' := by
  unfold reference at h
  split at h
  · exact absurd h (by simp only [reduceCtorEq, not_false_eq_true])
  · by_cases hempty : o.isEmpty = true
    · rw [if_pos hempty] at h
      exact absurd h (by simp only [reduceCtorEq, not_false_eq_true])
    · rw [if_neg hempty] at h
      split at h
      · rename_i s' hfind
        obtain ⟨rfl, rfl⟩ := Prod.mk.inj (Except.ok.inj h)
        exact .old hfind
      · exact absurd h (by simp only [reduceCtorEq, not_false_eq_true])
      · rename_i hnone
        obtain ⟨rfl, rfl⟩ := Prod.mk.inj (Except.ok.inj h)
        exact .new hnone rfl rfl (Bool.not_eq_true _ ▸ hempty)

/-- The symbol of a variable, a field or an element is answered for like any
    other. -/
theorem symbolOf_supplies {type : String} (h : PathState.symbolOf t type o = .ok (x, t')) :
    Supplies t o x t' := by
  unfold PathState.symbolOf at h
  split at h
  · cases hp : t.primitive type o with
    | error e =>
        rw [hp] at h
        exact absurd h (by simp only [Except.map, reduceCtorEq, not_false_eq_true])
    | ok r =>
        rw [hp] at h
        obtain ⟨rfl, rfl⟩ := Prod.mk.inj (Except.ok.inj h)
        exact (primitive_supplies hp).1
  · cases hr : t.reference type o with
    | error e =>
        rw [hr] at h
        exact absurd h (by simp only [Except.map, reduceCtorEq, not_false_eq_true])
    | ok r =>
        rw [hr] at h
        obtain ⟨rfl, rfl⟩ := Prod.mk.inj (Except.ok.inj h)
        exact reference_supplies hr

/-- What is handed out can stand for the values asked for. -/
theorem symbolOf_suits {type : String} (h : PathState.symbolOf t type o = .ok (x, t')) :
    x.suits type = true := by
  unfold PathState.symbolOf at h
  split at h
  · cases hp : t.primitive type o with
    | error e =>
        rw [hp] at h
        exact absurd h (by simp only [Except.map, reduceCtorEq, not_false_eq_true])
    | ok r =>
        rw [hp] at h
        rw [← (Prod.mk.inj (Except.ok.inj h)).1]
        exact beq_iff_eq.2 (primitive_supplies hp).2
  · rename_i hprimitive
    cases hr : t.reference type o with
    | error e =>
        rw [hr] at h
        exact absurd h (by simp only [Except.map, reduceCtorEq, not_false_eq_true])
    | ok r =>
        rw [hr] at h
        rw [← (Prod.mk.inj (Except.ok.inj h)).1]
        simpa [Symbol.suits] using hprimitive

/-- A reference that is handed out was there, or it has the type that was asked for. -/
theorem reference_type {d : String} {s : RefSymbol} (h : t.reference d o = .ok (s, t')) :
    .ref s ∈ t.symbols ∨ s.type = d := by
  unfold reference at h
  split at h
  · cases h
  · split at h
    · cases h
    · split at h
      · rename_i s' hfind
        rw [← (Prod.mk.inj (Except.ok.inj h)).1]
        exact .inl (mem_of_find? hfind)
      · cases h
      · rw [← (Prod.mk.inj (Except.ok.inj h)).1]
        exact .inr rfl

/-- A symbol that is handed out was there, or it has the type that was asked for. -/
theorem symbolOf_type {type : String} (h : PathState.symbolOf t type o = .ok (x, t')) :
    x ∈ t.symbols ∨ x.type = type := by
  unfold PathState.symbolOf at h
  split at h
  · cases hp : t.primitive type o with
    | error e =>
        rw [hp] at h
        cases h
    | ok r =>
        rw [hp] at h
        rw [← (Prod.mk.inj (Except.ok.inj h)).1]
        exact .inr (Prim.descriptor_of_ofDescriptor? (primitive_supplies hp).2)
  · cases hr : t.reference type o with
    | error e =>
        rw [hr] at h
        cases h
    | ok r =>
        rw [hr] at h
        rw [← (Prod.mk.inj (Except.ok.inj h)).1]
        exact reference_type hr

/-- A request for a symbol of a type that values can have is refused only if there is a
    symbol that cannot stand for them. -/
theorem symbolOf_error {type : String} {e : SymbolError}
    (htype : (Descriptor.isPrimitive type || Descriptor.isReferenceOrArray type) = true)
    (hnamed : o.isEmpty = false) (h : PathState.symbolOf t type o = .error e) :
    ∃ y, t.find? o = some y ∧ e = .occupied o y ∧ y.suits type = false := by
  unfold PathState.symbolOf at h
  by_cases hprimitive : Descriptor.isPrimitive type = true
  · rcases Option.isSome_iff_exists.1 hprimitive with ⟨p, hp⟩
    simp only [hprimitive, if_true, primitive, hp, hnamed, Bool.false_eq_true, if_false] at h
    cases hfind : t.find? o with
    | none => simp [hfind, Except.map] at h
    | some y =>
        cases y with
        | prim s =>
            by_cases hs : s.type = p
            · simp [hfind, hs, Except.map] at h
            · simp only [hfind, hs, if_false, Except.map, Except.error.injEq] at h
              exact ⟨_, rfl, h.symm, by simp [Symbol.suits, hp, Ne.symm hs]⟩
        | ref s =>
            simp only [hfind, Except.map, Except.error.injEq] at h
            exact ⟨_, rfl, h.symm, by simp [Symbol.suits, hprimitive]⟩
  · have hreference : Descriptor.isReferenceOrArray type = true := by simpa [hprimitive] using htype
    simp only [hprimitive, Bool.false_eq_true, if_false, reference, hreference, Bool.not_true,
      hnamed] at h
    cases hfind : t.find? o with
    | none => simp [hfind, Except.map] at h
    | some y =>
        cases y with
        | prim s =>
            simp only [hfind, Except.map, Except.error.injEq] at h
            have hnone : Prim.ofDescriptor? type = none := by
              simpa [Descriptor.isPrimitive] using hprimitive
            exact ⟨_, rfl, h.symm, by simp [Symbol.suits, hnone]⟩
        | ref s => simp [hfind, Except.map] at h

namespace Supplies

/-- A request only adds symbols. -/
theorem grows (h : Supplies t o x t') : t.symbols <+: t'.symbols := by
  cases h with
  | old hfind => exact List.prefix_refl _
  | new hnone hnumber horigin hnamed => exact List.prefix_append _ _

/-- The table finds at the origin what was handed out. -/
theorem find? (h : Supplies t o x t') : t'.find? o = some x := by
  cases h with
  | old hfind => exact hfind
  | new hnone hnumber horigin hnamed =>
      rw [← horigin] at hnone ⊢
      exact find?_push_self hnone

theorem mem (h : Supplies t o x t') : x ∈ t'.symbols :=
  mem_of_find? h.find?

/-- Only the symbol that was handed out can be new. -/
theorem mem_cases (h : Supplies t o x t') (hy : y ∈ t'.symbols) :
    y ∈ t.symbols ∨ y = x ∧ y.origin = o := by
  cases h with
  | old hfind => exact .inl hy
  | new hnone hnumber horigin hnamed =>
      rcases mem_push.1 hy with hy | rfl
      · exact .inl hy
      · exact .inr ⟨rfl, horigin⟩

theorem wellFormed (h : Supplies t o x t') (ht : t.WellFormed) : t'.WellFormed := by
  cases h with
  | old hfind => exact ht
  | new hnone hnumber horigin hnamed =>
      rw [← horigin] at hnone hnamed
      exact ht.push hnumber hnone hnamed

end Supplies

end SymbolTable

end PathWitness
