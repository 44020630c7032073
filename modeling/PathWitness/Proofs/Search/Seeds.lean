import Mathlib.Data.List.Basic
import PathWitness.Proofs.Term.Exact
import PathWitness.Search.Seed

/-!
# The Ranking of Seeds

The seeds of an integer type are listed in several steps: numbers are noted as constants bring
them up, those that do not fit the type are dropped, repetitions are dropped, what is left is
sorted, and the list is cut to a limit. Neighbours of a constant are noted only as far as words
go, and whether a number fits is seen by wrapping it to the type and back.

All of this amounts to one rule on whole numbers. The seeds are 0, 1, -1 and every constant with
the numbers next to it, as far as they are in the range of the type. They are ranked by their
distance from zero, and at the same distance by which was mentioned first. The rule leaves no
choice, so it determines the list.

## Main definitions

* `Prim.holds`: A number is in the range of an integral type.
* `Seed.mentions`: The numbers that constants bring up, in the order of mention.
* `Seed.Precedes`: One number ranks before another.
* `Seed.Ranking`: The list of all seeds by their rank.

## Theorems

* `Seed.fits_eq_holds`: A number fits a type if it is in its range.
* `Seed.filter_neighbours`: Words do not cut off anything that is in a range.
* `Seed.pairwise_distinct`: Dropping repetitions keeps the order of first mention.
* `pairwise_mergeSort_stable`: Sorting keeps the order of what ranks alike.
* `Seed.Ranking.unique`: There is one list of all seeds.
* `Seed.values_of_isInteger`: The seeds are cut to the limit.
* `Seed.values_ranked`: The values that are tried are the first ones of the ranking.
-/

namespace PathWitness

/-- A number is in the range of an integral type. -/
def Prim.holds (p : Prim) (i : Int) : Bool :=
  p.range?.any fun range => range.1 ≤ i && i ≤ range.2

theorem Prim.holds_iff {p : Prim} {least greatest i : Int}
    (hp : p.range? = some (least, greatest)) : p.holds i = true ↔ least ≤ i ∧ i ≤ greatest := by
  simp [holds, hp]

/-- The range of a type contains zero, and goes no farther than words do. -/
theorem Prim.range_spans {p : Prim} {least greatest : Int}
    (h : p.range? = some (least, greatest)) :
    (-2 ^ 63 ≤ least ∧ least ≤ 0) ∧ 0 ≤ greatest ∧ greatest < 2 ^ 63 := by
  cases p <;> simp_all [range?] <;> omega

/-- Sorting a list keeps the order in which it has the entries that rank alike. -/
theorem pairwise_mergeSort_stable {α : Type} {le : α → α → Bool} {R : α → α → Prop}
    (htrans : ∀ a b c, le a b = true → le b c = true → le a c = true)
    (htotal : ∀ a b, (le a b || le b a) = true) {l : List α} (h : l.Pairwise R) :
    (l.mergeSort le).Pairwise fun a b => le a b = true ∧ (le b a = true → R a b) := by
  induction l with
  | nil => simp
  | cons a l ih =>
      obtain ⟨hfirst, hrest⟩ := List.pairwise_cons.1 h
      -- The first entry goes behind those that rank strictly before it.
      obtain ⟨before, after, hcons, hl, hbefore⟩ := List.mergeSort_cons htrans htotal a l
      have hsorted := List.pairwise_mergeSort htrans htotal (a :: l)
      have hmem : ∀ b ∈ after, b ∈ l := by
        intro b hb
        rw [← @List.mem_mergeSort _ le, hl]
        exact List.mem_append_right before hb
      rw [hcons] at hsorted ⊢
      have ih := ih hrest
      rw [hl] at ih
      obtain ⟨-, hafter, -⟩ := List.pairwise_append.1 hsorted
      obtain ⟨ihbefore, ihafter, ihcross⟩ := List.pairwise_append.1 ih
      refine List.pairwise_append.2 ⟨ihbefore, List.pairwise_cons.2 ⟨fun b hb => ?_, ihafter⟩, ?_⟩
      · exact ⟨List.rel_of_pairwise_cons hafter hb, fun _ => hfirst b (hmem b hb)⟩
      · intro b hb c hc
        rcases List.mem_cons.1 hc with rfl | hc
        · have hnot : le c b = false := by simpa using hbefore b hb
          have hle := htotal c b
          rw [hnot, Bool.false_or] at hle
          exact ⟨hle, fun h => absurd h (by simp [hnot])⟩
        · exact ihcross b hb c hc

namespace Seed

variable {p : Prim} {least greatest : Int} {constants : List Const} {i j : Int}

/-- The numbers that constants bring up, in the order of mention. -/
def mentions (constants : List Const) : List Int :=
  [0, 1, -1] ++ constants.flatMap fun c => [c.value, c.value + 1, c.value - 1]

/-- One number ranks before another: it is closer to zero, or as close and mentioned first. -/
def Precedes (constants : List Const) (i j : Int) : Prop :=
  i.natAbs < j.natAbs ∨
    i.natAbs = j.natAbs ∧ (mentions constants).idxOf i < (mentions constants).idxOf j

/-- The list of all seeds of a type, by their rank. -/
structure Ranking (p : Prim) (constants : List Const) (all : List Int) : Prop where
  /-- The seeds are the numbers that are mentioned and in range. -/
  mem : ∀ i, i ∈ all ↔ i ∈ mentions constants ∧ p.holds i = true
  /-- No seed is repeated. -/
  nodup : all.Nodup
  /-- They are ordered by rank. -/
  ordered : all.Pairwise (Precedes constants)

theorem Precedes.asymm (h : Precedes constants i j) : ¬ Precedes constants j i := by
  unfold Precedes at h ⊢
  omega

/-- The ranking leaves no choice. -/
theorem Ranking.unique {all other : List Int} (h : Ranking p constants all)
    (h' : Ranking p constants other) : other = all := by
  refine List.Perm.eq_of_pairwise (fun i j _ _ hij hji => absurd hji hij.asymm) h'.ordered h.ordered
    ((List.perm_ext_iff_of_nodup h'.nodup h.nodup).2 fun i => ?_)
  rw [h.mem, h'.mem]

/-- The value of a seed is the integer it is made of. -/
theorem value_ofInt64_of_range (hp : p.range? = some (least, greatest))
    (hi : least ≤ i ∧ i ≤ greatest) : (Const.ofInt64 p (Int64.ofInt i)).value = i := by
  have hintegral : p.isIntegral = true := by
    rw [← Prim.isSome_range?, hp]
    rfl
  have hspans := Prim.range_spans hp
  rw [Const.value_ofInt64 hintegral, Int64.toInt_ofInt_of_le (by omega) (by omega),
    Exact.cast_of_range hp hi.1 hi.2]

/-- A number fits an integer type if it is in its range. -/
theorem fits_eq_holds (hp : p.isInteger = true) (i : Int) : fits p i = p.holds i := by
  obtain ⟨least, greatest, hrange⟩ := Prim.exists_range (Prim.isInteger_iff.1 hp).1
  rw [Bool.eq_iff_iff, Prim.holds_iff hrange]
  constructor
  · -- What a number is wrapped to is in range, so a number that stays as it is was in range.
    intro hfits
    have hvalue : (Const.ofInt64 p (Int64.ofInt i)).value = i := beq_iff_eq.1 hfits
    rw [← hvalue]
    exact Const.range_of_type (by rw [Const.type_ofInt64, hrange])
  · intro hi
    exact beq_iff_eq.2 (value_ofInt64_of_range hrange hi)

/-- The neighbours that are left out where words end are in no range. -/
theorem filter_neighbours (p : Prim) (c : Int) :
    (neighbours c).filter p.holds = [c, c + 1, c - 1].filter p.holds := by
  have hwords : ∀ i, p.holds i = true → -2 ^ 63 ≤ i ∧ i < 2 ^ 63 := by
    intro i hi
    obtain ⟨⟨least, greatest⟩, hrange, -⟩ := (Option.any_eq_true _ _).1 hi
    have hspans := Prim.range_spans hrange
    have hin := (Prim.holds_iff hrange).1 hi
    omega
  have habove : ¬ c < Number.greatestInt64 → p.holds (c + 1) = false := by
    intro hc
    rw [Bool.eq_false_iff]
    intro hi
    have hword := hwords _ hi
    unfold Number.greatestInt64 at hc
    omega
  have hbelow : ¬ Number.leastInt64 < c → p.holds (c - 1) = false := by
    intro hc
    rw [Bool.eq_false_iff]
    intro hi
    have hword := hwords _ hi
    unfold Number.leastInt64 at hc
    omega
  unfold neighbours
  by_cases hhigh : c < Number.greatestInt64 <;> by_cases hlow : Number.leastInt64 < c <;>
    simp [hhigh, hlow, habove, hbelow, List.filter_cons]

/-- The seeds are what is mentioned and in range, without repetitions and sorted. -/
theorem integers_eq (hp : p.isInteger = true) (constants : List Const) :
    integers p constants = (distinct (· == ·) ((mentions constants).filter p.holds)).mergeSort
      fun a b => a.natAbs ≤ b.natAbs := by
  have hfits : fits p = p.holds := funext (fits_eq_holds hp)
  have hconstants : (constants.flatMap fun c => neighbours c.toInt64.toInt).filter p.holds
      = (constants.flatMap fun c => [c.value, c.value + 1, c.value - 1]).filter p.holds := by
    rw [List.filter_flatMap, List.filter_flatMap]
    simp only [filter_neighbours]
    rfl
  simp only [integers, mentions, hfits, List.filter_append, hconstants]

theorem mem_distinct {a : Int} {l : List Int} : a ∈ distinct (· == ·) l ↔ a ∈ l := by
  induction l with
  | nil => rfl
  | cons b rest ih =>
      by_cases hab : a = b
      · simp [distinct, hab]
      · have hba : ¬ b = a := fun h => hab h.symm
        simp [distinct, ih, hab, hba]

/-- What is left without repetitions is in the order of first mention, also if something else
    is dropped before. -/
theorem pairwise_distinct (keep : Int → Bool) (l : List Int) :
    (distinct (· == ·) (l.filter keep)).Pairwise fun i j => l.idxOf i < l.idxOf j := by
  induction l with
  | nil => exact .nil
  | cons a l ih =>
      -- Numbers other than the first one are mentioned one position later.
      have hlater : ∀ {i j : Int}, i ≠ a → j ≠ a → l.idxOf i < l.idxOf j →
          (a :: l).idxOf i < (a :: l).idxOf j := by
        intro i j hi hj hij
        rw [List.idxOf_cons_ne l (Ne.symm hi), List.idxOf_cons_ne l (Ne.symm hj)]
        omega
      by_cases ha : keep a = true
      · rw [List.filter_cons_of_pos ha, distinct, List.pairwise_cons]
        have hne : ∀ i ∈ (distinct (· == ·) (l.filter keep)).filter (!a == ·), i ≠ a := by
          intro i hi
          have hkept : (!a == i) = true := (List.mem_filter.1 hi).2
          rintro rfl
          simp at hkept
        constructor
        · intro j hj
          rw [List.idxOf_cons_self, List.idxOf_cons_ne l (Ne.symm (hne j hj))]
          exact Nat.succ_pos _
        · exact (ih.filter _).imp_of_mem fun hi hj hij => hlater (hne _ hi) (hne _ hj) hij
      · rw [List.filter_cons_of_neg ha]
        have hne : ∀ i ∈ distinct (· == ·) (l.filter keep), i ≠ a := by
          rintro i hi rfl
          exact ha (List.mem_filter.1 (mem_distinct.1 hi)).2
        exact ih.imp_of_mem fun hi hj hij => hlater (hne _ hi) (hne _ hj) hij

/-- The seeds, before any limit, are ranked. -/
theorem ranking_integers (hp : p.isInteger = true) (constants : List Const) :
    Ranking p constants (integers p constants) := by
  have hordered : (integers p constants).Pairwise (Precedes constants) := by
    rw [integers_eq hp]
    refine (pairwise_mergeSort_stable (by simp; omega) (by simp; omega)
      (pairwise_distinct p.holds (mentions constants))).imp fun h => ?_
    simp only [decide_eq_true_eq] at h
    unfold Precedes
    omega
  refine ⟨fun i => ?_, ?_, hordered⟩
  · rw [integers_eq hp, List.mem_mergeSort, mem_distinct, List.mem_filter]
  · exact hordered.imp fun h heq => (heq ▸ h).asymm (heq ▸ h)

theorem holds_zero (hp : p.isInteger = true) : p.holds 0 = true := by
  obtain ⟨least, greatest, hrange⟩ := Prim.exists_range (Prim.isInteger_iff.1 hp).1
  have hspans := Prim.range_spans hrange
  exact (Prim.holds_iff hrange).2 ⟨hspans.1.2, hspans.2.1⟩

/-- Zero ranks first. -/
theorem Ranking.head? (hp : p.isInteger = true) {all : List Int} (h : Ranking p constants all) :
    all.head? = some 0 := by
  have hzero : 0 ∈ all := (h.mem 0).2 ⟨by simp [mentions], holds_zero hp⟩
  cases all with
  | nil => exact absurd hzero List.not_mem_nil
  | cons i rest =>
      rcases List.mem_cons.1 hzero with rfl | hrest
      · rfl
      · have hprecedes := List.rel_of_pairwise_cons h.ordered hrest
        unfold Precedes at hprecedes
        rw [List.head?_cons, show i = 0 by omega]

/-- For an integer type the seeds are cut to the limit. -/
theorem values_of_isInteger (hp : p.isInteger = true) (constants : List Const) {limit : Int}
    (hlimit : 0 ≤ limit) : values p constants limit =
      .ok (((integers p constants).take limit.toNat).map fun i => .ofInt64 p (Int64.ofInt i)) := by
  obtain ⟨hintegral, hboolean⟩ := Prim.isInteger_iff.1 hp
  have hfloating : p.isFloating = false := by simpa [Prim.isIntegral] using hintegral
  have hneg : ¬ limit < 0 := by omega
  simp only [values, if_neg hboolean, hfloating, Bool.false_eq_true, if_false, if_neg hneg]

/-- A number in range is the value of the constant that is made of it. -/
theorem map_value_ofInt64 (hp : p.isInteger = true) {l : List Int} (h : ∀ i ∈ l, p.holds i = true) :
    (l.map fun i => Const.ofInt64 p (Int64.ofInt i)).map Const.value = l := by
  obtain ⟨least, greatest, hrange⟩ := Prim.exists_range (Prim.isInteger_iff.1 hp).1
  have hvalue : ∀ i ∈ l, (Const.value ∘ fun i => Const.ofInt64 p (Int64.ofInt i)) i = i := by
    intro i hi
    exact value_ofInt64_of_range hrange ((Prim.holds_iff hrange).1 (h i hi))
  rw [List.map_map, List.map_congr_left hvalue, List.map_id']

/-- The values that are tried for an integer type are the first ones of the ranking. All of
    them are in range, none is tried twice, and zero is tried first. -/
theorem values_ranked (hp : p.isInteger = true) (constants : List Const) {limit : Int}
    (hlimit : 1 ≤ limit) :
    ∃ all, Ranking p constants all ∧ (∀ other, Ranking p constants other → other = all) ∧
      ∃ seeds, values p constants limit = .ok seeds ∧
        seeds.map Const.value = all.take limit.toNat ∧
        (∀ c ∈ seeds, c.type = p ∧ p.holds c.value = true) ∧
        (seeds.map Const.value).Nodup ∧ (seeds.map Const.value).head? = some 0 := by
  have hranking := ranking_integers hp constants
  have hholds : ∀ i ∈ (integers p constants).take limit.toNat, p.holds i = true :=
    fun i hi => ((hranking.mem i).1 (List.mem_of_mem_take hi)).2
  have hvalues := map_value_ofInt64 hp hholds
  refine ⟨_, hranking, fun other => hranking.unique, _,
    values_of_isInteger hp constants (by omega), hvalues, fun c hc => ⟨?_, ?_⟩, ?_, ?_⟩
  · obtain ⟨i, -, rfl⟩ := List.mem_map.1 hc
    exact Const.type_ofInt64 p _
  · have hmem := List.mem_map_of_mem (f := Const.value) hc
    rw [hvalues] at hmem
    exact hholds c.value hmem
  · rw [hvalues]
    exact hranking.nodup.sublist (List.take_sublist _ _)
  · rw [hvalues, List.head?_take, hranking.head? hp, if_neg (by omega)]

/-- The constants at both ends of the words, with a character between them. -/
def extremes : List Const :=
  [.long 9223372036854775807, .char 65535, .long (-9223372036854775808)]

/-- For a `long` every constant counts, and the ends have one neighbour each. -/
theorem values_ranked_extremes : (1 : Int) ≤ 6 ∧
    ∃ all, Ranking .long extremes all ∧ (∀ other, Ranking .long extremes other → other = all) ∧
      ∃ seeds, values .long extremes 6 = .ok seeds ∧
        seeds.map Const.value = all.take 6 ∧
        (∀ c ∈ seeds, c.type = .long ∧ Prim.long.holds c.value = true) ∧
        (seeds.map Const.value).Nodup ∧ (seeds.map Const.value).head? = some 0 :=
  ⟨by decide, values_ranked rfl extremes (by decide)⟩

example : values .byte [.int 127] 16 =
    .ok [.byte 0, .byte 1, .byte (-1), .byte 126, .byte 127] := by cbv

example : values .long extremes 9 = .ok [.long 0, .long 1, .long (-1), .long 65534, .long 65535,
    .long 65536, .long 9223372036854775806, .long 9223372036854775807,
    .long (-9223372036854775807)] := by cbv

end Seed

end PathWitness
