import PathWitness.Proofs.Search.Exhaustive
import PathWitness.Proofs.Search.Seeds

/-!
# Seeds at the Boundaries

A comparison with a constant changes its truth only at the constant. So if a number
meets some comparisons, then a constant or one of its neighbours meets them as well,
or zero does, if no constant lies between zero and the number.

The seeds of a type are fewer than that: a constant may be out of the range of the
type, and then it is no seed, nor need its neighbours be. But the number that takes
the place of the given one can be chosen between zero and it. Zero and the given
number are in the range, and so is what lies between.

## Main definitions

* `Bound`: A comparison of a symbol with an integer constant, on either side.
* `Bound.admits`: The numbers that meet a bound.
* `Alike`: Two numbers lie on the same side of a third.
* `Toward`: A number lies between zero and another.

## Theorems

* `exists_toward_alike`: What constants do not tell apart.
* `Seed.mem_integers`, `Seed.length_integers_le`: The seeds of an integer type.
* `Bound.makesTrue_term`: A bound is true under the numbers that meet it.
* `LocalSearch.solve_bounds`: The search meets bounds that can be met.
-/

namespace PathWitness

/-- Two numbers lie on the same side of a third, or both are equal to it. -/
def Alike (c v w : Int) : Prop :=
  (w < c ↔ v < c) ∧ (c < w ↔ c < v)

/-- The second number lies between zero and the first. -/
def Toward (v w : Int) : Prop :=
  (0 ≤ w ∧ w ≤ v) ∨ (v ≤ w ∧ w ≤ 0)

/-- For every number there is one among zero, the constants and their neighbours that
    lies on the same side of each constant, and not farther from zero. -/
theorem exists_toward_alike (v : Int) (cs : List Int) :
    ∃ w, (w = 0 ∨ ∃ c ∈ cs, w = c ∨ w = c + 1 ∨ w = c - 1) ∧ Toward v w ∧
      ∀ c ∈ cs, Alike c v w := by
  induction cs with
  | nil =>
      refine ⟨0, .inl rfl, ?_, fun c hc => absurd hc List.not_mem_nil⟩
      unfold Toward
      omega
  | cons c rest ih =>
      rcases ih with ⟨w, hnear, htoward, halike⟩
      by_cases hc : Alike c v w
      · refine ⟨w, ?_, htoward, List.forall_mem_cons.2 ⟨hc, halike⟩⟩
        rcases hnear with hzero | ⟨d, hd, hwd⟩
        · exact .inl hzero
        · exact .inr ⟨d, List.mem_cons_of_mem c hd, hwd⟩
      · -- The constant parts the two numbers. The nearest number on the other side lies
        -- between them, and the constants before do not tell apart what lies there.
        have hstep : ∃ w', (w' = c ∨ w' = c + 1 ∨ w' = c - 1) ∧ Alike c v w' ∧
            ((w ≤ w' ∧ w' ≤ v) ∨ (v ≤ w' ∧ w' ≤ w)) := by
          unfold Alike at hc ⊢
          by_cases heq : v = c
          · exact ⟨c, by omega⟩
          · by_cases hlt : v < c
            · exact ⟨c - 1, by omega⟩
            · exact ⟨c + 1, by omega⟩
        rcases hstep with ⟨w', hw', hc', hbetween⟩
        refine ⟨w', .inr ⟨c, List.mem_cons_self, hw'⟩, ?_, List.forall_mem_cons.2 ⟨hc', ?_⟩⟩
        · unfold Toward at htoward ⊢
          omega
        · intro d hd
          have hd' := halike d hd
          unfold Alike at hd' ⊢
          omega

namespace Seed

variable {p : Prim} {i : Int}

theorem length_distinct_le (l : List Int) : (distinct (· == ·) l).length ≤ l.length := by
  induction l with
  | nil => exact Nat.le_refl 0
  | cons b rest ih =>
      have hfilter := List.length_filter_le (!b == ·) (distinct (· == ·) rest)
      simp only [distinct, List.length_cons]
      omega

theorem length_neighbours_le (i : Int) : (neighbours i).length ≤ 3 := by
  unfold neighbours
  split <;> split <;> simp

/-- Zero and what is near to a constant are seeds, as far as the range goes. -/
theorem mem_integers {constants : List Const} (hp : p.isInteger = true) (hi : p.holds i = true)
    (hnear : i = 0 ∨ ∃ c ∈ constants, i = c.value ∨ i = c.value + 1 ∨ i = c.value - 1) :
    i ∈ integers p constants := by
  refine ((ranking_integers hp constants).mem i).2 ⟨?_, hi⟩
  rcases hnear with rfl | ⟨c, hc, hic⟩
  · exact List.mem_cons_self
  · exact List.mem_append_right _ (List.mem_flatMap.2 ⟨c, hc, by simpa using hic⟩)

theorem length_integers_le (p : Prim) (constants : List Const) :
    (integers p constants).length ≤ 3 + 3 * constants.length := by
  have hmentioned : (constants.flatMap fun c => neighbours c.toInt64.toInt).length
      ≤ 3 * constants.length := by
    induction constants with
    | nil => exact Nat.le_refl 0
    | cons c rest ih =>
        have hc := length_neighbours_le c.toInt64.toInt
        simp only [List.flatMap_cons, List.length_append, List.length_cons]
        omega
  unfold integers
  rw [List.length_mergeSort]
  refine Nat.le_trans (length_distinct_le _) (Nat.le_trans (List.length_filter_le _ _) ?_)
  simp only [List.length_append, List.length_cons, List.length_nil]
  omega

end Seed

/-- A comparison of a symbol with an integer constant. -/
structure Bound where
  /-- How they are compared. -/
  op : Comparison
  /-- The constant. -/
  constant : Const
  /-- The constant is an integer, and not a truth value. -/
  integer : constant.type.isInteger = true
  /-- The constant stands on the left. -/
  reversed : Bool

namespace Bound

variable {x : PrimSymbol}

/-- The condition that a symbol meets a bound. -/
def term (b : Bound) (x : PrimSymbol) : Term :=
  if b.reversed then .binary (.comparison b.op) (.const b.constant) (.symbol x)
  else .binary (.comparison b.op) (.symbol x) (.const b.constant)

/-- A number meets the bound. -/
def admits (b : Bound) (v : Int) : Bool :=
  if b.reversed then b.op.exact b.constant.value v else b.op.exact v b.constant.value

theorem admits_of_alike (b : Bound) {v w : Int} (h : Alike b.constant.value v w) :
    b.admits w = b.admits v := by
  unfold Alike at h
  unfold admits
  cases b.reversed <;> cases b.op <;> simp [Comparison.exact] <;> omega

theorem occurrences_term (b : Bound) (x : PrimSymbol) : (b.term x).occurrences = [x] := by
  unfold term
  cases b.reversed <;> rfl

theorem constants_term (b : Bound) (x : PrimSymbol) : (b.term x).constants = [b.constant] := by
  unfold term
  cases b.reversed <;> rfl

theorem testable_term (b : Bound) (hx : x.type.isInteger = true) : (b.term x).Testable := by
  have hxb : x.type ≠ .boolean := (Prim.isInteger_iff.1 hx).2
  have hcb : b.constant.type ≠ .boolean := (Prim.isInteger_iff.1 b.integer).2
  unfold term
  cases b.reversed
  · refine ⟨(Term.Built.of_binary (.symbol x) (.const _) ?_).wellTyped, ⟨trivial, trivial⟩, rfl⟩
    simp [BinaryOperator.resultType?, Term.type, hxb, hcb]
  · refine ⟨(Term.Built.of_binary (.const _) (.symbol x) ?_).wellTyped, ⟨trivial, trivial⟩, rfl⟩
    simp [BinaryOperator.resultType?, Term.type, hxb, hcb]

/-- A comparison of integers is true if it is true of their values. -/
theorem makesTrue_comparison {m : Model} {left right : Term} {v w : Const} (op : Comparison)
    (hleft : m.eval left = .ok v) (hright : m.eval right = .ok w)
    (hv : v.type.isInteger = true) (hw : w.type.isInteger = true) :
    m.makesTrue (.binary (.comparison op) left right) = op.exact v.value w.value := by
  have heval : m.eval (.binary (.comparison op) left right)
      = .ok (.boolean (op.exact v.value w.value)) := by
    unfold Model.eval at hleft hright ⊢
    simp only [Term.eval, hleft, hright, bind, Except.bind, BinaryOperator.resultType,
      Except.mapError,
      BinaryOperator.apply_comparison op (Prim.isInteger_iff.1 hv).1 (Prim.isInteger_iff.1 hw).1]
  rw [Search.makesTrue_eq_of_eval heval rfl]
  cases op.exact v.value w.value <;> rfl

/-- The condition is true under the numbers that meet the bound. -/
theorem makesTrue_term (b : Bound) (hx : x.type.isInteger = true) {v : Const}
    (hv : v.type = x.type) (m : Model) : (m.set x v).makesTrue (b.term x) = b.admits v.value := by
  have hself : v.convert x.type = v := by
    rw [← hv]
    exact if_pos rfl
  have hsymbol : (m.set x v).eval (.symbol x) = .ok v := by
    simp only [Model.eval, Term.eval, Model.lookup, Model.get?_set_self, hself]
  have hconstant : (m.set x v).eval (.const b.constant) = .ok b.constant := rfl
  rw [← hv] at hx
  unfold term admits
  cases b.reversed
  · exact makesTrue_comparison b.op hsymbol hconstant hx b.integer
  · exact makesTrue_comparison b.op hconstant hsymbol b.integer hx

/-- What meets the same bounds as a value of the type is among the seeds. -/
theorem exists_seed {p : Prim} (hp : p.isInteger = true) {v : Const} (hv : v.type = p)
    (bounds : List Bound) :
    ∃ i ∈ Seed.integers p (bounds.map (·.constant)),
      (Const.ofInt64 p (Int64.ofInt i)).value = i ∧
        ∀ b ∈ bounds, b.admits i = b.admits v.value := by
  obtain ⟨least, greatest, hrange⟩ := Prim.exists_range (Prim.isInteger_iff.1 hp).1
  have hvalue := Const.range_of_type (hv ▸ hrange)
  have hspans := Prim.range_spans hrange
  rcases exists_toward_alike v.value (bounds.map (·.constant.value)) with
    ⟨i, hnear, htoward, halike⟩
  have hi : least ≤ i ∧ i ≤ greatest := by
    unfold Toward at htoward
    omega
  refine ⟨i, Seed.mem_integers hp ((Prim.holds_iff hrange).2 hi) ?_,
    Seed.value_ofInt64_of_range hrange hi, ?_⟩
  · rcases hnear with hzero | ⟨c, hc, hic⟩
    · exact .inl hzero
    · rcases List.mem_map.1 hc with ⟨b, hb, rfl⟩
      exact .inr ⟨b.constant, List.mem_map_of_mem hb, hic⟩
  · intro b hb
    exact b.admits_of_alike (halike _ (List.mem_map_of_mem hb))

end Bound

namespace Search

variable {x : PrimSymbol} {bounds : List Bound}

/-- Bounds of one symbol mention no other. -/
theorem mentioned_bounds (b : Bound) (bounds : List Bound) (x : PrimSymbol) :
    mentioned ((b :: bounds).map (·.term x)) = [x] := by
  have hrest : ∀ y ∈ (bounds.map (·.term x)).flatMap Term.occurrences, y = x := by
    intro y hy
    rcases List.mem_flatMap.1 hy with ⟨c, hc, hyc⟩
    rcases List.mem_map.1 hc with ⟨b', -, rfl⟩
    rw [b'.occurrences_term x] at hyc
    exact List.mem_singleton.1 hyc
  unfold mentioned
  rw [List.map_cons, List.flatMap_cons, b.occurrences_term x, List.singleton_append,
    firstOccurrences]
  congr 1
  refine List.filter_eq_nil_iff.2 fun y hy => ?_
  rw [hrest y (mem_of_mem_firstOccurrences hy)]
  simp

theorem constants_bounds (bounds : List Bound) (x : PrimSymbol) :
    (bounds.map (·.term x)).flatMap Term.constants = bounds.map (·.constant) := by
  induction bounds with
  | nil => rfl
  | cons b rest ih =>
      rw [List.map_cons, List.flatMap_cons, ih, b.constants_term x]
      rfl

/-- A limit that is high enough takes nothing away from the seeds. -/
theorem seeds_of_length_le {p : Prim} (hp : p.isInteger = true) {constants : List Const}
    {limit : Int} (hlimit : 3 + 3 * (constants.length : Int) ≤ limit) :
    seeds limit constants p
      = (Seed.integers p constants).map fun i => .ofInt64 p (Int64.ofInt i) := by
  have hlength := Seed.length_integers_le p constants
  have htake : (Seed.integers p constants).take limit.toNat = Seed.integers p constants :=
    List.take_of_length_le (by omega)
  rw [seeds, Seed.values_of_isInteger hp constants (by omega), htake]
  rfl

/-- The assignments of a symbol with bounds are its seeds. -/
theorem choices_bounds (hx : x.type.isInteger = true) (b : Bound) {limit : Int}
    (hlimit : 3 + 3 * ((b :: bounds).length : Int) ≤ limit) :
    choices limit ((b :: bounds).map (·.term x)) =
      [(x, (Seed.integers x.type ((b :: bounds).map (·.constant))).map
        fun i => .ofInt64 x.type (Int64.ofInt i))] := by
  rw [choices, mentioned_bounds, constants_bounds, List.map_singleton,
    seeds_of_length_le hx (by rwa [List.length_map])]

theorem nodes_bounds_le (hx : x.type.isInteger = true) {limit : Int}
    (hlimit : 3 + 3 * (bounds.length : Int) ≤ limit) :
    nodes (choices limit (bounds.map (·.term x))) ≤ 3 + 3 * bounds.length := by
  cases bounds with
  | nil => exact Nat.zero_le _
  | cons b rest =>
      have hlength := Seed.length_integers_le x.type ((b :: rest).map (·.constant))
      rw [List.length_map] at hlength
      rw [choices_bounds hx b hlimit]
      simpa only [nodes, List.length_map, Nat.add_zero, Nat.mul_one] using hlength

/-- If bounds can be met, they are met by one of the assignments. -/
theorem exists_mem_completions_bounds (hx : x.type.isInteger = true) {limit : Int}
    (hlimit : 3 + 3 * (bounds.length : Int) ≤ limit) {v : Const} (hv : v.type = x.type)
    (hmet : ∀ b ∈ bounds, (Model.empty.set x v).makesTrue (b.term x) = true) :
    ∃ m ∈ completions (choices limit (bounds.map (·.term x))) .empty,
      ∀ b ∈ bounds, m.makesTrue (b.term x) = true := by
  rcases Bound.exists_seed hx hv bounds with ⟨i, hi, hvalue, hadmits⟩
  cases bounds with
  | nil => exact ⟨.empty, List.mem_singleton_self _, fun b hb => absurd hb List.not_mem_nil⟩
  | cons b rest =>
      rw [choices_bounds hx b hlimit]
      refine ⟨Model.empty.set x (.ofInt64 x.type (Int64.ofInt i)), ?_, ?_⟩
      · refine List.mem_flatMap.2 ⟨_, List.mem_map_of_mem hi, List.mem_singleton_self _⟩
      · intro b' hb'
        have hb := hmet b' hb'
        rw [b'.makesTrue_term hx hv] at hb
        rw [b'.makesTrue_term hx (Const.type_ofInt64 _ _), hvalue, hadmits b' hb', hb]

/-- The enumeration finds something if there is something to find. -/
theorem exhaustive_of_mem_completions {limit : Int} {cs : List Term} {m : Model}
    (hopen : ∀ c ∈ cs, c.occurrences ≠ []) (hm : m ∈ completions (choices limit cs) .empty)
    (htrue : ∀ c ∈ cs, m.makesTrue c = true) :
    ∃ m', exhaustive limit cs = .ok m' ∧ ∀ c ∈ cs, m'.makesTrue c = true := by
  have hclosed : (cs.find? fun c => c.occurrences.isEmpty && !Model.empty.makesTrue c) = none := by
    rw [List.find?_eq_none]
    intro c hc
    simp [hopen c hc]
  cases hfind : (completions (choices limit cs) .empty).find? fun m => cs.all m.makesTrue with
  | none =>
      have hnot := List.find?_eq_none.1 hfind m hm
      exact absurd (List.all_eq_true.2 htrue) hnot
  | some m' =>
      refine ⟨m', by rw [exhaustive, hclosed, hfind], ?_⟩
      have hall := List.find?_some hfind
      exact List.all_eq_true.1 hall

end Search

namespace LocalSearch

/-- If a value of the type meets all bounds of an integer symbol, the search finds one.
    It needs three candidates and three steps for each constant, and three for zero. -/
theorem solve_bounds (s : LocalSearch) {x : PrimSymbol} {bounds : List Bound}
    (hx : x.type.isInteger = true)
    (hcandidates : 3 + 3 * (bounds.length : Int) ≤ s.settings.maxCandidates)
    (hsteps : 3 + 3 * (bounds.length : Int) ≤ s.settings.maxSteps)
    (hmet : ∃ v : Const, v.type = x.type ∧
      ∀ b ∈ bounds, (Model.empty.set x v).makesTrue (b.term x) = true) :
    ∃ m, s.answer (bounds.map (·.term x)) = .ok m ∧
      ∀ b ∈ bounds, m.makesTrue (b.term x) = true := by
  rcases hmet with ⟨v, hv, hmet⟩
  have htest : ∀ c ∈ bounds.map (·.term x), c.Testable := by
    intro c hc
    rcases List.mem_map.1 hc with ⟨b, -, rfl⟩
    exact b.testable_term hx
  have hopen : ∀ c ∈ bounds.map (·.term x), c.occurrences ≠ [] := by
    intro c hc
    rcases List.mem_map.1 hc with ⟨b, -, rfl⟩
    simp [b.occurrences_term x]
  have hnodes := Search.nodes_bounds_le hx hcandidates
  rcases Search.exists_mem_completions_bounds hx hcandidates hv hmet with ⟨m, hm, htrue⟩
  rcases Search.exhaustive_of_mem_completions hopen hm (List.forall_mem_map.2 htrue) with
    ⟨m', hfound, htrue'⟩
  refine ⟨m', ?_, List.forall_mem_map.1 htrue'⟩
  rw [answer_eq_exhaustive (by omega) htest (by omega), hfound]
  rfl

/-- Below the second least of all long numbers, and not the greatest. -/
def lowest : List Bound :=
  [⟨.lt, .long (-9223372036854775807), rfl, false⟩, ⟨.ne, .long 9223372036854775807, rfl, true⟩]

/-- Only the least long number is that low. It is found where the words end and where
    constants have one neighbour less. -/
theorem solve_bounds_lowest :
    (∀ b ∈ lowest, (Model.empty.set ⟨0, .long, .ofRoot "x"⟩
      (.long (-9223372036854775808))).makesTrue (b.term ⟨0, .long, .ofRoot "x"⟩) = true) ∧
    ∃ m, (ofSettings { maxCandidates := 9, maxSteps := 9 }).answer
        (lowest.map (·.term ⟨0, .long, .ofRoot "x"⟩)) = .ok m ∧
      ∀ b ∈ lowest, m.makesTrue (b.term ⟨0, .long, .ofRoot "x"⟩) = true := by
  have hmet : ∀ b ∈ lowest, (Model.empty.set ⟨0, .long, .ofRoot "x"⟩
      (.long (-9223372036854775808))).makesTrue (b.term ⟨0, .long, .ofRoot "x"⟩) = true := by
    decide
  exact ⟨hmet, solve_bounds (ofSettings { maxCandidates := 9, maxSteps := 9 }) rfl (by decide)
    (by decide) ⟨.long (-9223372036854775808), rfl, hmet⟩⟩

end LocalSearch

end PathWitness
