import PathWitness.TestCase.Generator

/-!
# Parallel Rendering is Sequential Rendering

Workers take the indices of paths from a queue and leave renderings, in an order
that nobody controls. What they leave does not depend on that order, because two
things hold after every move: a result that is there is the result of its own
job, and a job without a result is still somewhere, unsent, in the queue or with
a worker, unless the work was called off.

When no move is left, no job is anywhere, so all results are there. That this
point is reached within three moves for each job is shown by a measure that every
move takes one off: a job has three moves before it when it is unsent, two in the
queue, and one with a worker.

## Main definitions

* `Pool.Sound`: What holds of results and jobs after every move.
* `Pool.remaining`: How many moves are left.
* `Generator.formatEach`: Tests for a list of paths, one after another.

## Theorems

* `step_cases`: What a move does.
* `Sound.step`, `remaining_step`: What holds after a move.
* `outstanding_of_stuck`: Without a possible move, no job is left.
* `drain_finished`: The remaining moves do all jobs.
* `run_results`: The results of all schedules are the same.
* `formatBatch_eq_formatEach`: A batch is rendered as if by one call after
  another, or not at all.
-/

namespace PathWitness

namespace Pool

variable {ρ : Type} {job : Nat → ρ} {jobs : Nat} {p q : Pool ρ} {m : Move}

/-- The jobs that workers have. -/
def busy (p : Pool ρ) : List Nat :=
  p.workers.filterMap id

/-- The jobs without a result, wherever they are. -/
def outstanding (p : Pool ρ) : List Nat :=
  p.unsent ++ p.queue ++ p.busy

/-- How many moves are left: a job is sent, taken and finished. -/
def remaining (p : Pool ρ) : Nat :=
  3 * p.unsent.length + 2 * p.queue.length + p.busy.length

/-- What a move does, with what makes it possible. -/
theorem step_cases (h : p.step job m = some q) :
    (m = .send ∧ ∃ i rest, p.unsent = i :: rest ∧
      q = { p with unsent := rest, queue := p.queue ++ [i] }) ∨
    (∃ w i rest, m = .take w ∧ p.queue = i :: rest ∧ p.workers[w]? = some none ∧
      q = { p with queue := rest, workers := p.workers.set w (some i) }) ∨
    (∃ w i, m = .finish w ∧ p.workers[w]? = some (some i) ∧
      q = { p with workers := p.workers.set w none, results := p.results.set i (some (job i)) }) ∨
    (m = .cancel ∧ q = { p with unsent := [], canceled := true }) := by
  cases m with
  | send =>
      simp only [step] at h
      split at h
      · rename_i i rest hunsent
        split at h
        · exact .inl ⟨rfl, i, rest, hunsent, (Option.some.inj h).symm⟩
        · exact absurd h (by simp only [reduceCtorEq, not_false_eq_true])
      · exact absurd h (by simp only [reduceCtorEq, not_false_eq_true])
  | take w =>
      simp only [step] at h
      split at h
      · rename_i i rest hqueue hworker
        exact .inr (.inl ⟨w, i, rest, rfl, hqueue, hworker, (Option.some.inj h).symm⟩)
      · exact absurd h (by simp only [reduceCtorEq, not_false_eq_true])
  | finish w =>
      simp only [step] at h
      split at h
      · rename_i i hworker
        exact .inr (.inr (.inl ⟨w, i, rfl, hworker, (Option.some.inj h).symm⟩))
      · exact absurd h (by simp only [reduceCtorEq, not_false_eq_true])
  | cancel =>
      simp only [step] at h
      split at h
      · exact .inr (.inr (.inr ⟨rfl, (Option.some.inj h).symm⟩))
      · exact absurd h (by simp only [reduceCtorEq, not_false_eq_true])

theorem mem_outstanding {i : Nat} :
    i ∈ p.outstanding ↔ i ∈ p.unsent ∨ i ∈ p.queue ∨ some i ∈ p.workers := by
  simp only [outstanding, busy, List.mem_append, List.mem_filterMap, id_eq, exists_eq_right,
    or_assoc]

/-- A worker that takes a job has it, and the others have what they had. -/
theorem mem_set_some {workers : List (Option Nat)} {w i j : Nat} (h : workers[w]? = some none) :
    some j ∈ workers.set w (some i) ↔ j = i ∨ some j ∈ workers := by
  obtain ⟨hw, hidle⟩ := List.getElem?_eq_some_iff.1 h
  constructor
  · intro hmem
    rcases List.mem_or_eq_of_mem_set hmem with hmem | heq
    · exact .inr hmem
    · exact .inl (Option.some.inj heq)
  · rintro (rfl | hmem)
    · exact List.mem_set hw _
    · obtain ⟨v, hv, hjob⟩ := List.mem_iff_getElem.1 hmem
      have hne : w ≠ v := by
        rintro rfl
        exact absurd (hidle.symm.trans hjob) (by simp only [reduceCtorEq, not_false_eq_true])
      have hv' : v < (workers.set w (some i)).length := by rw [List.length_set]; exact hv
      exact List.mem_iff_getElem.2 ⟨v, hv', by rw [List.getElem_set_ne hne, hjob]⟩

/-- A worker that is finished has lost its own job only. -/
theorem mem_set_none {workers : List (Option Nat)} {w i j : Nat} (h : workers[w]? = some (some i))
    (hne : j ≠ i) (hmem : some j ∈ workers) : some j ∈ workers.set w none := by
  obtain ⟨hw, hbusy⟩ := List.getElem?_eq_some_iff.1 h
  obtain ⟨v, hv, hjob⟩ := List.mem_iff_getElem.1 hmem
  have hwv : w ≠ v := by
    rintro rfl
    exact hne (Option.some.inj (hjob.symm.trans hbusy))
  have hv' : v < (workers.set w none).length := by rw [List.length_set]; exact hv
  exact List.mem_iff_getElem.2 ⟨v, hv', by rw [List.getElem_set_ne hwv, hjob]⟩

/-- What is found where something was written. -/
theorem getElem?_set_self_cases {α : Type} {l : List α} {i : Nat} {a b : α}
    (h : (l.set i a)[i]? = some b) : b = a := by
  obtain ⟨hi, hval⟩ := List.getElem?_eq_some_iff.1 h
  rw [List.getElem_set_self] at hval
  exact hval.symm

/-- What holds of results and jobs after every move. -/
structure Sound (job : Nat → ρ) (jobs : Nat) (p : Pool ρ) : Prop where
  /-- There is a place for every result. -/
  size : p.results.length = jobs
  /-- A result is the result of its own job. -/
  right : ∀ (i : Nat) r, p.results[i]? = some (some r) → r = job i
  /-- A job without a result is somewhere, unless the work was called off. -/
  left : p.canceled = false → ∀ i : Nat, p.results[i]? = some none → i ∈ p.outstanding

theorem Sound.start {workers : Nat} : Sound job jobs (start workers jobs) where
  size := List.length_replicate
  right := by
    intro i r h
    rw [Pool.start, List.getElem?_replicate] at h
    split at h
    · exact absurd (Option.some.inj h) (by simp only [reduceCtorEq, not_false_eq_true])
    · exact absurd h (by simp only [reduceCtorEq, not_false_eq_true])
  left := by
    intro _ i h
    rw [Pool.start, List.getElem?_replicate] at h
    split at h
    · rename_i hi
      exact mem_outstanding.2 (.inl (List.mem_range.2 hi))
    · exact absurd h (by simp only [reduceCtorEq, not_false_eq_true])

/-- A move keeps results right, and loses no job. -/
theorem Sound.step (hp : Sound job jobs p) (h : p.step job m = some q) : Sound job jobs q := by
  rcases step_cases h with ⟨-, i, rest, hunsent, rfl⟩ | ⟨w, i, rest, -, hqueue, hworker, rfl⟩ |
    ⟨w, i, -, hworker, rfl⟩ | ⟨-, rfl⟩
  · refine ⟨hp.size, hp.right, fun hc j hj => ?_⟩
    have hmem := mem_outstanding.1 (hp.left hc j hj)
    rw [hunsent, List.mem_cons] at hmem
    refine mem_outstanding.2 ?_
    rw [List.mem_append, List.mem_singleton]
    rcases hmem with (rfl | hmem) | hmem | hmem
    · exact .inr (.inl (.inr rfl))
    · exact .inl hmem
    · exact .inr (.inl (.inl hmem))
    · exact .inr (.inr hmem)
  · refine ⟨hp.size, hp.right, fun hc j hj => ?_⟩
    have hmem := mem_outstanding.1 (hp.left hc j hj)
    rw [hqueue, List.mem_cons] at hmem
    refine mem_outstanding.2 ?_
    rw [mem_set_some hworker]
    rcases hmem with hmem | (rfl | hmem) | hmem
    · exact .inl hmem
    · exact .inr (.inr (.inl rfl))
    · exact .inr (.inl hmem)
    · exact .inr (.inr (.inr hmem))
  · -- The place of the job is the only one that changes, and it is filled.
    refine ⟨by rw [List.length_set]; exact hp.size, fun j r hr => ?_, fun hc j hj => ?_⟩
    · by_cases hij : i = j
      · subst hij
        exact Option.some.inj (getElem?_set_self_cases hr)
      · rw [List.getElem?_set_ne hij] at hr
        exact hp.right j r hr
    · by_cases hij : i = j
      · subst hij
        exact absurd (getElem?_set_self_cases hj) (by simp only [reduceCtorEq, not_false_eq_true])
      · rw [List.getElem?_set_ne hij] at hj
        rcases mem_outstanding.1 (hp.left hc j hj) with hmem | hmem | hmem
        · exact mem_outstanding.2 (.inl hmem)
        · exact mem_outstanding.2 (.inr (.inl hmem))
        · exact mem_outstanding.2 (.inr (.inr (mem_set_none hworker (Ne.symm hij) hmem)))
  · exact ⟨hp.size, hp.right, fun hc => absurd hc (by simp only [Bool.true_eq_false,
      not_false_eq_true])⟩

/-- A move takes one off the measure, or calls the work off. -/
theorem remaining_step (h : p.step job m = some q) :
    q.remaining + 1 = p.remaining ∨ m = .cancel ∧ q.remaining ≤ p.remaining := by
  unfold remaining busy
  rcases step_cases h with ⟨-, i, rest, hunsent, rfl⟩ | ⟨w, i, rest, -, hqueue, hworker, rfl⟩ |
    ⟨w, i, -, hworker, rfl⟩ | ⟨rfl, rfl⟩
  · simp only [hunsent, List.length_append, List.length_cons, List.length_nil]
    exact .inl (by omega)
  · obtain ⟨hw, hidle⟩ := List.getElem?_eq_some_iff.1 hworker
    rw [hqueue, List.length_cons, List.length_filterMap_eq_countP, List.length_filterMap_eq_countP,
      List.countP_set hw, hidle]
    exact .inl (by simp only [id_eq, Option.isSome_none, Option.isSome_some, Bool.false_eq_true,
      if_false, if_true]; omega)
  · obtain ⟨hw, hbusy⟩ := List.getElem?_eq_some_iff.1 hworker
    have hpos : 0 < p.workers.countP (fun a => (id a).isSome) :=
      List.countP_pos_iff.2 ⟨some i, hbusy ▸ List.getElem_mem hw, rfl⟩
    rw [List.length_filterMap_eq_countP, List.length_filterMap_eq_countP,
      List.countP_set hw, hbusy]
    exact .inl (by simp only [id_eq, Option.isSome_none, Option.isSome_some, Bool.false_eq_true,
      if_false, if_true] at hpos ⊢; omega)
  · exact .inr ⟨rfl, by simp only [List.length_nil]; omega⟩

/-- The queue and the workers stay the ones the pool started with. -/
theorem shape_step (h : p.step job m = some q) :
    q.capacity = p.capacity ∧ q.workers.length = p.workers.length := by
  rcases step_cases h with ⟨-, i, rest, -, rfl⟩ | ⟨w, i, rest, -, -, -, rfl⟩ | ⟨w, i, -, -, rfl⟩ |
    ⟨-, rfl⟩
  · exact ⟨rfl, rfl⟩
  · exact ⟨rfl, List.length_set⟩
  · exact ⟨rfl, List.length_set⟩
  · exact ⟨rfl, rfl⟩

/-- Only a call to stop calls the work off. -/
theorem canceled_step (h : p.step job m = some q) (hm : m ≠ .cancel) : q.canceled = p.canceled := by
  rcases step_cases h with ⟨-, i, rest, -, rfl⟩ | ⟨w, i, rest, -, -, -, rfl⟩ | ⟨w, i, -, -, rfl⟩ |
    ⟨rfl, -⟩
  · rfl
  · rfl
  · rfl
  · exact absurd rfl hm

/-- Whatever every possible move keeps, a schedule keeps. -/
theorem follow_keeps {P : Pool ρ → Prop} {schedule : List Move}
    (hstep : ∀ p q m, m ∈ schedule → P p → p.step job m = some q → P q) (hp : P p) :
    P (p.follow job schedule) := by
  unfold follow
  induction schedule generalizing p with
  | nil => exact hp
  | cons m rest ih =>
      rw [List.foldl_cons]
      refine ih (fun p q n hn => hstep p q n (List.mem_cons_of_mem m hn)) ?_
      cases h : p.step job m with
      | none => exact hp
      | some q => exact hstep p q m List.mem_cons_self hp h

theorem mem_ownMoves : m ∈ p.ownMoves ↔
    (∃ w < p.workers.length, m = .finish w) ∨ (∃ w < p.workers.length, m = .take w) ∨
      m = .send := by
  simp only [ownMoves, List.mem_append, List.mem_map, List.mem_range, List.mem_singleton,
    or_assoc, eq_comm]

theorem ownMoves_ne_cancel (h : m ∈ p.ownMoves) : m ≠ .cancel := by
  rcases mem_ownMoves.1 h with ⟨w, -, rfl⟩ | ⟨w, -, rfl⟩ | rfl <;>
    simp only [ne_eq, reduceCtorEq, not_false_eq_true]

/-- Whatever every possible move but a call to stop keeps, the remaining moves
    keep. -/
theorem drain_keeps {P : Pool ρ → Prop} {n : Nat}
    (hstep : ∀ p q m, m ≠ .cancel → P p → p.step job m = some q → P q) (hp : P p) :
    P (p.drain job n) := by
  induction n generalizing p with
  | zero => exact hp
  | succ n ih =>
      rw [drain]
      cases h : p.ownMoves.findSome? (p.step job) with
      | none => exact hp
      | some q =>
          obtain ⟨m, hm, hq⟩ := List.exists_of_findSome?_eq_some h
          exact ih (hstep p q m (ownMoves_ne_cancel hm) hp hq)

/-- Where no move is possible, no job is left. -/
theorem outstanding_of_stuck (hcapacity : 0 < p.capacity) (hworkers : 0 < p.workers.length)
    (h : ∀ m ∈ p.ownMoves, p.step job m = none) : p.outstanding = [] := by
  -- A worker with a job could finish it.
  have hidle : ∀ w i : Nat, p.workers[w]? ≠ some (some i) := by
    intro w i hw
    have hlt : w < p.workers.length := (List.getElem?_eq_some_iff.1 hw).1
    have hnone := h (.finish w) (mem_ownMoves.2 (.inl ⟨w, hlt, rfl⟩))
    simp only [step, hw, reduceCtorEq] at hnone
  have hzero : p.workers[0]? = some none := by
    cases hw : p.workers[0]? with
    | none => exact absurd (List.getElem?_eq_none_iff.1 hw) (by omega)
    | some work =>
        cases work with
        | none => rfl
        | some i => exact absurd hw (hidle 0 i)
  -- All workers are idle, so the first could take a job.
  have hqueue : p.queue = [] := by
    cases hq : p.queue with
    | nil => rfl
    | cons i rest =>
        have hnone := h (.take 0) (mem_ownMoves.2 (.inr (.inl ⟨0, hworkers, rfl⟩)))
        simp only [step, hq, hzero, reduceCtorEq] at hnone
  -- The queue is empty, so a job could be sent.
  have hunsent : p.unsent = [] := by
    cases hu : p.unsent with
    | nil => rfl
    | cons i rest =>
        have hnone := h .send (mem_ownMoves.2 (.inr (.inr rfl)))
        simp only [step, hu, hqueue, List.length_nil, hcapacity, if_true, reduceCtorEq] at hnone
  have hbusy : p.busy = [] := by
    refine List.filterMap_eq_nil_iff.2 fun work hwork => ?_
    cases work with
    | none => rfl
    | some i =>
        obtain ⟨w, hw⟩ := List.mem_iff_getElem?.1 hwork
        exact absurd hw (hidle w i)
  rw [outstanding, hunsent, hqueue, hbusy, List.append_nil, List.append_nil]

/-- As many moves as remain do all jobs. -/
theorem drain_finished {n : Nat} (hcapacity : 0 < p.capacity) (hworkers : 0 < p.workers.length)
    (hn : p.remaining ≤ n) : (p.drain job n).outstanding = [] := by
  induction n generalizing p with
  | zero =>
      rw [remaining] at hn
      refine List.eq_nil_of_length_eq_zero ?_
      rw [drain, outstanding, List.length_append, List.length_append]
      omega
  | succ n ih =>
      rw [drain]
      cases h : p.ownMoves.findSome? (p.step job) with
      | none => exact outstanding_of_stuck hcapacity hworkers (List.findSome?_eq_none_iff.1 h)
      | some q =>
          obtain ⟨m, hm, hq⟩ := List.exists_of_findSome?_eq_some h
          obtain ⟨hcap, hlen⟩ := shape_step hq
          refine ih (by rw [hcap]; exact hcapacity) (by rw [hlen]; exact hworkers) ?_
          rcases remaining_step hq with hless | ⟨hcancel, -⟩
          · omega
          · exact absurd hcancel (ownMoves_ne_cancel hm)

theorem remaining_start {workers : Nat} :
    (start workers jobs : Pool ρ).remaining = 3 * jobs := by
  have hbusy : (start workers jobs : Pool ρ).busy = [] :=
    List.filterMap_eq_nil_iff.2 fun work hwork => (List.mem_replicate.1 hwork).2 ▸ rfl
  rw [remaining, hbusy, start, List.length_range, List.length_nil]
  omega

/-- After a schedule no more moves remain than at the start. -/
theorem follow_shape (job : Nat → ρ) (schedule : List Move) (workers jobs : Nat) :
    let p := (start workers jobs).follow job schedule
    p.capacity = workers * 2 ∧ p.workers.length = workers ∧ p.remaining ≤ 3 * jobs := by
  refine follow_keeps (P := fun p => p.capacity = workers * 2 ∧ p.workers.length = workers ∧
    p.remaining ≤ 3 * jobs) (fun p q m _ hp hq => ?_)
    ⟨rfl, List.length_replicate, Nat.le_of_eq remaining_start⟩
  obtain ⟨hcap, hlen⟩ := shape_step hq
  refine ⟨hcap.trans hp.1, hlen.trans hp.2.1, ?_⟩
  have hle := hp.2.2
  rcases remaining_step hq with hless | ⟨-, hless⟩ <;> omega

/-- A run that is not called off leaves the result of every job, whatever the
    schedule. -/
theorem run_results {schedule : List Move} {workers : Nat} (hworkers : 0 < workers ∨ jobs = 0)
    (h : (run job schedule workers jobs).canceled = false) :
    (run job schedule workers jobs).results = (List.range jobs).map fun i => some (job i) := by
  have hsound : Sound job jobs (run job schedule workers jobs) :=
    drain_keeps (fun p q m _ hp hq => hp.step hq)
      (follow_keeps (fun p q m _ hp hq => hp.step hq) .start)
  have hdone : jobs = 0 ∨ (run job schedule workers jobs).outstanding = [] := by
    rcases hworkers with hworkers | hzero
    · obtain ⟨hcap, hlen, hle⟩ := follow_shape job schedule workers jobs
      exact .inr (drain_finished (by omega) (by omega) hle)
    · exact .inl hzero
  refine List.ext_getElem? fun i => ?_
  rw [List.getElem?_map]
  by_cases hi : i < jobs
  · rw [List.getElem?_range hi, Option.map_some]
    cases hr : (run job schedule workers jobs).results[i]? with
    | none => exact absurd (List.getElem?_eq_none_iff.1 hr) (by rw [hsound.size]; omega)
    | some result =>
        cases result with
        | some r => rw [hsound.right i r hr]
        | none =>
            have hmem := hsound.left h i hr
            rcases hdone with rfl | hnone
            · omega
            · rw [hnone] at hmem
              exact absurd hmem List.not_mem_nil
  · have hsize := hsound.size
    rw [List.getElem?_eq_none_iff.2 (by omega), List.getElem?_eq_none_iff.2
      (by rw [List.length_range]; omega), Option.map_none]

/-- Without a call to stop a run is not called off. -/
theorem run_canceled {schedule : List Move} {workers : Nat} (h : .cancel ∉ schedule) :
    (run job schedule workers jobs).canceled = false :=
  drain_keeps (P := fun p => p.canceled = false)
    (fun _ _ _ hm hp hq => (canceled_step hq hm).trans hp)
    (follow_keeps (P := fun p => p.canceled = false)
      (fun _ _ _ hm hp hq => (canceled_step hq fun hc => h (hc ▸ hm)).trans hp) rfl)

end Pool

namespace TestCase

/-- No path is the reason that a batch is called off. -/
theorem render_error_ne_canceled (opts : Options) (number : Nat) (p : FinishedPath) :
    (render opts number p).error ≠ some .canceled := by
  unfold render
  intro h
  split at h
  · split at h
    · exact absurd h (by simp only [reduceCtorEq, not_false_eq_true])
    · exact absurd h (by simp only [reduceCtorEq, not_false_eq_true])
    · exact absurd h (by simp only [reduceCtorEq, not_false_eq_true])
    · exact absurd (Option.some.inj h) (by simp only [reduceCtorEq, not_false_eq_true])
  · exact absurd (Option.some.inj h) (by simp only [reduceCtorEq, not_false_eq_true])

end TestCase

namespace Generator

open TestCase

/-- Adds the tests of a list of paths one after another, and keeps the first
    error. -/
def formatEach (g : Generator) : List FinishedPath → Option BatchError × Generator
  | [] => (none, g)
  | p :: rest =>
    let first := g.format p
    let others := first.2.formatEach rest
    (first.1.error.or others.1, others.2)

variable (g : Generator) (paths : List FinishedPath)

/-- What is rendered after a test is rendered with the next number. -/
theorem renderAt_succ (p : FinishedPath) (i : Nat) :
    g.renderAt (p :: paths) (i + 1) = (g.format p).2.renderAt paths i := by
  have hnumber : g.count + (i + 1) = g.count + 1 + i := by omega
  rw [renderAt, renderAt, List.getElem?_cons_succ, hnumber, format]

/-- Renderings that are put together are tests added one after another. -/
theorem addRenderings_eq_formatEach :
    let r := g.addRenderings ((List.range paths.length).map (g.renderAt paths))
    (r.error, r.generator) = g.formatEach paths := by
  induction paths generalizing g with
  | nil => simp only [addRenderings, List.length_nil, List.range_zero, List.map_nil,
      List.findSome?_nil, String.join_nil, String.append_empty, Nat.add_zero, formatEach]
  | cons p rest ih =>
      have hrest := ih (g.format p).2
      have hlist : (List.range (p :: rest).length).map (g.renderAt (p :: rest)) =
          (g.format p).1 :: (List.range rest.length).map ((g.format p).2.renderAt rest) := by
        rw [List.length_cons, List.range_succ_eq_map, List.map_cons, List.map_map]
        congr 1
        exact List.map_congr_left fun i _ => g.renderAt_succ rest p i
      rw [hlist, formatEach, ← hrest]
      simp only [addRenderings, List.findSome?_cons, List.map_cons, String.join_cons,
        List.length_cons, format, String.append_assoc, Nat.add_assoc, Nat.add_comm 1]
      cases (render g.options g.count p).error with
      | none => rfl
      | some e => rfl

theorem formatEach_ne_canceled : (g.formatEach paths).1 ≠ some .canceled := by
  induction paths generalizing g with
  | nil => simp only [formatEach, ne_eq, reduceCtorEq, not_false_eq_true]
  | cons p rest ih =>
      have hfirst := render_error_ne_canceled g.options g.count p
      rw [formatEach, format]
      cases h : (render g.options g.count p).error with
      | none => exact ih _
      | some e => rw [h] at hfirst; exact hfirst

/-- A batch with a path has a worker. -/
theorem workersFor_pos (workers : Int) (n : Nat) : 0 < workersFor workers n ∨ n = 0 := by
  have hdefault : defaultWorkers = 4 := rfl
  unfold workersFor
  split <;> omega

/-- What a batch leaves when its pool was not called off. -/
theorem formatBatch_finished {workers : Int} {schedule : List Pool.Move}
    (h : (Pool.run (g.renderAt paths) schedule (workersFor workers paths.length)
      paths.length).canceled = false) :
    let r := g.formatBatch paths workers false schedule
    (r.error, r.generator) = g.formatEach paths := by
  have hresults := Pool.run_results (workersFor_pos workers paths.length) h
  rw [← addRenderings_eq_formatEach]
  simp only [formatBatch, Bool.false_eq_true, if_false, h, hresults, List.map_map]
  split <;> rfl

/-- A batch is rendered as if by one call after another, or not at all.

    Without a call to stop, text, number and first error are those of the calls
    in the order of the paths, whatever the workers and the schedule. A batch
    that reports to be called off leaves everything as it was, and any other
    report is that of the calls too, even if the call to stop came late. -/
theorem formatBatch_eq_formatEach (workers : Int) (canceled : Bool) (schedule : List Pool.Move) :
    let r := g.formatBatch paths workers canceled schedule
    (canceled = false → .cancel ∉ schedule → (r.error, r.generator) = g.formatEach paths) ∧
    (r.error = some .canceled → r.generator = g) ∧
    (r.error ≠ some .canceled → (r.error, r.generator) = g.formatEach paths) := by
  cases canceled with
  | true => exact ⟨fun h => absurd h (by decide), fun _ => rfl, fun h => absurd rfl h⟩
  | false =>
      cases hpool : (Pool.run (g.renderAt paths) schedule (workersFor workers paths.length)
        paths.length).canceled with
      | false =>
          have heq := g.formatBatch_finished paths hpool
          refine ⟨fun _ _ => heq, fun hc => ?_, fun _ => heq⟩
          exact absurd ((congrArg Prod.fst heq).symm.trans hc) (g.formatEach_ne_canceled paths)
      | true =>
          have hr : g.formatBatch paths workers false schedule =
              { error := some .canceled, generator := g } := by
            simp only [formatBatch, Bool.false_eq_true, if_false, hpool, if_true]
          refine ⟨fun _ hm => ?_, fun _ => by rw [hr], fun hne => absurd (by rw [hr]) hne⟩
          exact absurd (Pool.run_canceled hm) (by rw [hpool]; decide)

/-- A path through a method without parameters, and a path without states. -/
def mixedBatch : List FinishedPath :=
  let idle : PathState := { signature := ⟨"Main", "()V", "idle"⟩, isStatic := true }
  [⟨some idle, some idle, none⟩, ⟨none, none, none⟩]

/-- The second path is rendered first: the outcome is that of the two calls in
    order. A batch that is called off after the first test was rendered leaves
    nothing of it. -/
theorem formatBatch_mixed :
    (let r := ({} : Generator).formatBatch mixedBatch 2 false
      [.send, .send, .take 1, .take 0, .finish 0, .finish 1]
    (r.error, r.generator) = ({} : Generator).formatEach mixedBatch) ∧
    (({} : Generator).formatEach mixedBatch).1 = some (.missingState 1) ∧
    (let r := ({} : Generator).formatBatch mixedBatch 2 false [.send, .take 0, .finish 0, .cancel]
    r.error = some .canceled ∧ r.generator = {}) := by
  refine ⟨(formatBatch_eq_formatEach {} mixedBatch 2 false _).1 rfl (by decide), by rfl, by rfl, ?_⟩
  exact (formatBatch_eq_formatEach {} mixedBatch 2 false _).2.1 (by rfl)

end Generator

end PathWitness
