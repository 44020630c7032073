import PathWitness.Heap
import PathWitness.Proofs.Computation

/-!
# What Writing to a Heap Leaves as it Was

A heap changes in two ways: an object is added behind all others, or a slot of
an object is written. Neither takes away what could be read before, as long as a
slot that holds something is only written with what it holds. `Heap.Extends`
states this as an order on heaps.

## Main definitions

* `HeapObject.Extends`: One object reads like another, and possibly more.
* `Heap.Extends`: All objects of one heap are in another.

## Theorems

* `get?_isSome_iff`: The positions in use are those from 1 to the size.
* `get?_allocate`, `get?_replace`: Reading a heap after a change.
* `write_eq`: What writing to a heap comes to.
* `get_of_slot`, `get_ok_cases`: Reading an object through its slots.
* `HeapObject.extends_of_set`: Writing a slot keeps what could be read.
* `Heap.extends_allocate`, `Heap.extends_replace`: The same for heaps.
-/

namespace PathWitness

variable {key k : String} {v w : Option Value} {slots : List (String × Option Value)}

theorem lookup_putSlot_self : (putSlot key v slots).lookup key = some v := by
  induction slots with
  | nil => simp only [putSlot, List.lookup_cons, beq_self_eq_true]
  | cons e rest ih =>
      unfold putSlot
      by_cases he : e.1 = key
      · simp only [if_pos he, List.lookup_cons, beq_self_eq_true]
      · have hne : (key == e.1) = false := beq_eq_false_iff_ne.2 (fun hc => he hc.symm)
        rw [if_neg he, List.lookup_cons, hne]
        exact ih

theorem lookup_putSlot_other (hk : k ≠ key) : (putSlot key v slots).lookup k = slots.lookup k := by
  have hkey : (k == key) = false := beq_eq_false_iff_ne.2 hk
  induction slots with
  | nil => simp only [putSlot, List.lookup_cons, hkey]
  | cons e rest ih =>
      unfold putSlot
      by_cases he : e.1 = key
      · rw [if_pos he, List.lookup_cons, hkey, List.lookup_cons, he, hkey]
      · rw [if_neg he, List.lookup_cons, List.lookup_cons, ih]

/-- A new slot is put behind all others. -/
theorem putSlot_of_missing (h : slots.lookup key = none) :
    putSlot key v slots = slots ++ [(key, v)] := by
  induction slots with
  | nil => rfl
  | cons e rest ih =>
      rw [List.lookup_cons] at h
      by_cases he : e.1 = key
      · simp [he] at h
      · have hne : (key == e.1) = false := beq_eq_false_iff_ne.2 (Ne.symm he)
        simp only [hne] at h
        rw [putSlot, if_neg he, ih h, List.cons_append]

namespace HeapObject

variable {o o' : HeapObject} {a b : Accessor}

/-- The accessor names a slot that the object can have: elements are for arrays
    only. -/
def Names (o : HeapObject) (a : Accessor) (key : String) : Prop :=
  a.slot? = some key ∧ ∀ i, a = .index i → o.isArray = true

/-- A slot is read through every accessor that names it. -/
theorem get_of_slot (ha : o.Names a key) (hslot : o.slot? key = some v) : o.get a = .ok v := by
  cases a with
  | field name =>
      rw [← Option.some.inj ha.1] at hslot
      simp only [get, get.read, hslot]
  | index i =>
      rw [← Option.some.inj ha.1] at hslot
      simp only [get, ha.2 i rfl, if_true, get.read, hslot]
  | length => exact absurd ha.1 (by simp only [Accessor.slot?, reduceCtorEq, not_false_eq_true])

/-- What can be read is the length of an array or the content of a slot. -/
theorem get_ok_cases (h : o.get a = .ok v) :
    (a = .length ∧ ∃ n, o.length = some n ∧ v = some (.term n)) ∨
      ∃ key, o.Names a key ∧ o.slot? key = some v := by
  have hread : ∀ key, get.read o key = .ok v → o.slot? key = some v := by
    intro key hkey
    unfold get.read at hkey
    split at hkey
    · rename_i w hslot
      rw [hslot, Except.ok.inj hkey]
    · exact absurd hkey (by simp only [reduceCtorEq, not_false_eq_true])
  cases a with
  | field name => exact .inr ⟨name, ⟨rfl, fun i hi => by cases hi⟩, hread name h⟩
  | index i =>
      simp only [get] at h
      split at h
      · rename_i harray
        exact .inr ⟨_, ⟨rfl, fun _ _ => harray⟩, hread _ h⟩
      · exact absurd h (by simp only [reduceCtorEq, not_false_eq_true])
  | length =>
      simp only [get] at h
      split at h
      · rename_i n _ hn
        exact .inl ⟨rfl, n, hn, (Except.ok.inj h).symm⟩
      · exact absurd h (by simp only [reduceCtorEq, not_false_eq_true])

/-- Writing puts the value into the slot that the accessor names. -/
theorem set_spec (h : o.set a v = .ok o') :
    ∃ key, o.Names a key ∧ o' = { o with slots := putSlot key v o.slots } := by
  cases a with
  | field name => exact ⟨name, ⟨rfl, fun i hi => by cases hi⟩, (Except.ok.inj h).symm⟩
  | index i =>
      simp only [set] at h
      split at h
      · rename_i harray
        exact ⟨_, ⟨rfl, fun _ _ => harray⟩, (Except.ok.inj h).symm⟩
      · exact absurd h (by simp only [reduceCtorEq, not_false_eq_true])
  | length => exact absurd h (by simp only [set, reduceCtorEq, not_false_eq_true])

/-- One object reads like another, and possibly more. -/
structure Extends (o o' : HeapObject) : Prop where
  type : o'.type = o.type
  origin : o'.origin = o.origin
  get : ∀ {a v}, o.get a = .ok v → o'.get a = .ok v

theorem Extends.refl (o : HeapObject) : o.Extends o :=
  ⟨rfl, rfl, id⟩

theorem Extends.trans {o'' : HeapObject} (h : o.Extends o') (h' : o'.Extends o'') :
    o.Extends o'' :=
  ⟨h'.type.trans h.type, h'.origin.trans h.origin, fun hget => h'.get (h.get hget)⟩

/-- A value that was written is read. -/
theorem get_of_set (h : o.set a v = .ok o') : o'.get a = .ok v := by
  rcases set_spec h with ⟨key, hkey, rfl⟩
  exact get_of_slot hkey lookup_putSlot_self

/-- Writing a slot keeps what could be read, if the slot was empty or is written
    with what it holds. -/
theorem extends_of_set (h : o.set a v = .ok o')
    (hkept : ∀ key w, o.Names a key → o.slot? key = some w → w = v) : o.Extends o' := by
  rcases set_spec h with ⟨key, hkey, rfl⟩
  refine ⟨rfl, rfl, fun {b w} hb => ?_⟩
  rcases get_ok_cases hb with ⟨rfl, n, _, _⟩ | ⟨k, hk, hslot⟩
  · exact hb
  · refine get_of_slot hk ?_
    -- Different accessors can name one slot, so the keys decide.
    by_cases hkk : k = key
    · rw [hkk] at hslot ⊢
      rw [hkept key w hkey hslot]
      exact lookup_putSlot_self
    · exact (lookup_putSlot_other hkk).trans hslot

end HeapObject

namespace Heap

variable {h : Heap} {p q : Int} {o o' : HeapObject}

/-- The positions in use are those from 1 to the size. -/
theorem get?_isSome_iff : (h.get? p).isSome = true ↔ 1 ≤ p ∧ p ≤ h.size := by
  unfold get? indexOf? size
  by_cases hp : 0 < p
  · have hlt : h.objects[p.toNat - 1]?.isSome = true ↔ p.toNat - 1 < h.objects.length := by simp
    rw [if_pos hp, Option.bind_some, hlt]
    omega
  · rw [if_neg hp, Option.bind_none]
    simp only [Option.isSome_none, Bool.false_eq_true, false_iff]
    omega

theorem pos_of_get? (hp : h.get? p = some o) : 1 ≤ p ∧ p ≤ h.size :=
  get?_isSome_iff.1 (by rw [hp, Option.isSome_some])

theorem get?_of_get (hp : h.get p = .ok o) : h.get? p = some o := by
  unfold get at hp
  split at hp
  · rename_i o₁ ho₁
    rw [ho₁, Except.ok.inj hp]
  · exact absurd hp (by simp only [reduceCtorEq, not_false_eq_true])

/-- A new object stands at its position, and all others at theirs. -/
theorem get?_allocate :
    (h.allocate o).2.get? p = some o' ↔ h.get? p = some o' ∨ p = h.size + 1 ∧ o = o' := by
  unfold get? indexOf? allocate size
  by_cases hp : 0 < p
  · rw [if_pos hp, Option.bind_some, Option.bind_some]
    have hplace : p.toNat - 1 = h.objects.length ↔ p = (h.objects.length : Int) + 1 := by omega
    rw [getElem?_snoc, hplace]
  · rw [if_neg hp, Option.bind_none, Option.bind_none]
    simp only [reduceCtorEq, false_or, false_iff, not_and]
    omega

/-- An object put in place of another stands at that one's position. -/
theorem get?_replace (hp : h.get? p = some o) :
    (h.replace p o').get? q = if q = p then some o' else h.get? q := by
  have hpos := pos_of_get? hp
  -- Positions start at one and places in the list at zero.
  unfold get? replace indexOf?
  simp only [if_pos (show 0 < p by omega)]
  by_cases hq : 0 < q
  · rw [if_pos hq, Option.bind_some, Option.bind_some]
    by_cases hqp : q = p
    · have hlt : p.toNat - 1 < h.objects.length := by
        have hsize : p ≤ (h.objects.length : Int) := hpos.2
        omega
      rw [if_pos hqp, hqp, List.getElem?_set_self hlt]
    · rw [if_neg hqp, List.getElem?_set_ne (by omega)]
  · rw [if_neg hq, if_neg (show q ≠ p by omega), Option.bind_none, Option.bind_none]

theorem size_replace (h : Heap) (p : Int) (o : HeapObject) :
    (h.replace p o).size = h.size := by
  unfold replace
  split
  · exact List.length_set
  · rfl

/-- Writing to an object that is there puts the written object in its place. -/
theorem write_eq {a : Accessor} {v : Option Value} (hp : h.get? p = some o)
    (hset : o.set a v = .ok o') : h.write p a v = .ok (h.replace p o') := by
  have hget : h.get p = .ok o := by rw [get, hp]
  simp only [write, hget, bind, Except.bind, hset, pure, Except.pure]

/-- All objects of one heap are in another, where they read alike. -/
def Extends (h h' : Heap) : Prop :=
  ∀ p o, h.get? p = some o → ∃ o', h'.get? p = some o' ∧ o.Extends o'

theorem Extends.refl (h : Heap) : h.Extends h :=
  fun _ o hp => ⟨o, hp, .refl o⟩

theorem Extends.trans {h' h'' : Heap} (hh' : h.Extends h') (hh'' : h'.Extends h'') :
    h.Extends h'' := by
  intro p o hp
  obtain ⟨o', hp', ho'⟩ := hh' p o hp
  obtain ⟨o'', hp'', ho''⟩ := hh'' p o' hp'
  exact ⟨o'', hp'', ho'.trans ho''⟩

theorem read_of_get? {a : Accessor} {v : Option Value} (hp : h.get? p = some o)
    (hget : o.get a = .ok v) : h.read p a = .ok v := by
  have hobject : h.get p = .ok o := by rw [get, hp]
  simp only [read, hobject, bind, Except.bind, hget, pure, Except.pure]

theorem get_of_read {a : Accessor} {v : Option Value} (hp : h.get? p = some o)
    (hread : h.read p a = .ok v) : o.get a = .ok v := by
  obtain ⟨o', ho', hget⟩ := bind_eq_ok hread
  obtain rfl : o = o' := Option.some.inj (hp.symm.trans (get?_of_get ho'))
  cases hslot : o.get a with
  | error fault => simp [hslot] at hget
  | ok w =>
      rw [hslot] at hget
      rw [show w = v from Except.ok.inj hget]

/-- What is read from a heap is read from one with more in it. -/
theorem Extends.read {h' : Heap} (hext : h.Extends h') {a : Accessor} {v : Option Value}
    (hread : h.read p a = .ok v) : h'.read p a = .ok v := by
  obtain ⟨o, ho, -⟩ := bind_eq_ok hread
  obtain ⟨o', ho', hobject⟩ := hext p o (get?_of_get ho)
  exact read_of_get? ho' (hobject.get (get_of_read (get?_of_get ho) hread))

theorem extends_allocate (h : Heap) (o : HeapObject) : h.Extends (h.allocate o).2 :=
  fun _ o' hp => ⟨o', get?_allocate.2 (.inl hp), .refl o'⟩

theorem extends_replace (hp : h.get? p = some o) (ho : o.Extends o') :
    h.Extends (h.replace p o') := by
  intro q o₁ hq
  by_cases hqp : q = p
  · rw [hqp, hp] at hq
    rw [← Option.some.inj hq]
    exact ⟨o', by rw [get?_replace hp, if_pos hqp], ho⟩
  · exact ⟨o₁, by rw [get?_replace hp, if_neg hqp, hq], .refl o₁⟩

end Heap

end PathWitness
