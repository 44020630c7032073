import Mathlib
import PathWitness.Proofs.Search.Soundness

/-!
# Answers from Memory

A solver that remembers gives the answer for one list of conditions to every
later list with the same text. The text of a symbol is its number, so it says
nothing about the type of the symbol, and a value that is right for a symbol of
one type can be wrong for a symbol of another.

What is in the memory was once the answer for a list with the text it is kept
under. So remembering is harmless exactly as long as, among the lists that are
asked about, the answer for one list is right for all lists with its text. Both
directions are shown: two calls are enough to be told a wrong answer, and no
number of calls leads to one otherwise.

Of the memory two things are used. What is found under a text was stored under it, and
what was just stored is found. When the memory forgets does not matter.

## Main definitions

* `Call`: One question to a solver.
* `Memory`, `Memory.Lawful`: A memory for answers, and what is asked of it.
* `Memory.RightThroughout`: A run of calls in which every answer is right.
* `LocalSearch.Shared`: Answers are right for all lists with the same text.
* `Solver.remembering`, `ModelCache.memory`: The memory of a solver.

## Theorems

* `ask_of_hit`, `ask_of_miss`: What one call does.
* `LocalSearch.solve_after`: What the search was asked before does not change its answers.
* `Memory.rightThroughout_of_shared`: What holds of each call holds of a run.
* `ModelCache.memory_lawful`: The memory of a solver is lawful.
* `remembering_right_iff`: When remembering is harmless.
* `remembering_wrong`: Two calls of which the second is answered wrongly.
-/

namespace PathWitness

/-- One question to a solver. -/
structure Call where
  /-- When the search for an answer is called off, if it is. -/
  interruption : Option Interruption := none
  /-- The conditions. -/
  conditions : List (Option Term)

/-- A memory for findings under texts, by what can be done with it. -/
structure Memory (κ : Type) where
  /-- The memory in which nothing was stored. -/
  empty : κ
  /-- What is found under a text, and the memory after that. -/
  find? : κ → String → Option (Finding × κ)
  /-- The memory after nothing was found. -/
  missed : κ → κ
  /-- The memory after a finding was stored under a text. -/
  store : κ → String → Finding → κ

namespace Memory

variable {κ : Type}

/-- A memory as it can be after some findings were stored. -/
inductive Reached (memory : Memory κ) : List (String × Finding) → κ → Prop where
  | empty : Reached memory [] memory.empty
  | found {stored : List (String × Finding)} {c c' : κ} {key : String} {f : Finding}
    (h : Reached memory stored c) (hfind : memory.find? c key = some (f, c')) :
    Reached memory stored c'
  | missed {stored : List (String × Finding)} {c : κ} {key : String} (h : Reached memory stored c)
    (hfind : memory.find? c key = none) : Reached memory stored (memory.missed c)
  | store {stored : List (String × Finding)} {c : κ} (key : String) (f : Finding)
    (h : Reached memory stored c) : Reached memory ((key, f) :: stored) (memory.store c key f)

/-- What is asked of a memory. It may forget whatever it likes. -/
structure Lawful (memory : Memory κ) : Prop where
  /-- Only what was stored under a text is found under it. -/
  returns : ∀ {stored c c' key f}, memory.Reached stored c →
    memory.find? c key = some (f, c') → (key, f) ∈ stored
  /-- What was just stored is found. -/
  finds : ∀ {stored c} key f, memory.Reached stored c →
    ∃ c', memory.find? (memory.store c key f) key = some (f, c')

/-- Asks a search with a memory, and gives the answer with what to ask next. -/
def ask (memory : Memory κ) (search : LocalSearch) (c : κ) (call : Call) :
    Except SolveError Model × LocalSearch × κ :=
  let key := conditionKey call.conditions
  match memory.find? c key with
  | some (f, c) => (Solver.remembered f, search, c)
  | none =>
    let (answer, search) := search.solve call.interruption call.conditions
    let c := memory.missed c
    match Solver.finding? answer with
    | some f => (answer, search, memory.store c key f)
    | none => (answer, search, c)

/-- Every answer in a run of calls is right for the conditions of its own call. -/
def RightThroughout (memory : Memory κ) : LocalSearch → κ → List Call → Prop
  | _, _, [] => True
  | search, c, call :: rest =>
    let reply := memory.ask search c call
    Right call.conditions reply.1 ∧ memory.RightThroughout reply.2.1 reply.2.2 rest

end Memory

namespace Solver

/-- The backtracking search with a memory for its answers. -/
def remembering (search : LocalSearch) (cache : ModelCache) : Solver :=
  { fallback := .searching search, cache := some cache }

/-- Every answer in a run of calls is right for the conditions of its own
    call. -/
def RightThroughout : Solver → List Call → Prop
  | _, [] => True
  | s, call :: rest =>
    let reply := s.solve call.interruption call.conditions
    Right call.conditions reply.answer ∧ reply.solver.RightThroughout rest

/-- What is remembered of an answer is right for the same conditions. -/
theorem right_remembered {a : Except SolveError Model} {f : Finding} (h : finding? a = some f)
    (conditions : List (Option Term)) : Right conditions (remembered f) ↔ Right conditions a := by
  cases a with
  | ok m =>
      rw [← Option.some.inj h]
      exact Iff.rfl
  | error e =>
      by_cases hunsat : e.isUnsat = true
      · -- The wording may differ, but both claim that there is no model.
        rw [finding?, if_pos hunsat] at h
        rw [← Option.some.inj h]
        exact ⟨fun hright _ => hright rfl, fun hright _ => hright hunsat⟩
      · rw [finding?, if_neg hunsat] at h
        exact absurd h (by simp only [reduceCtorEq, not_false_eq_true])

/-- An answer of which nothing is remembered claims nothing. -/
theorem right_of_finding_none {a : Except SolveError Model} (h : finding? a = none)
    (conditions : List (Option Term)) : Right conditions a := by
  cases a with
  | ok m => exact absurd h (by simp only [finding?, reduceCtorEq, not_false_eq_true])
  | error e =>
      intro hunsat
      exact absurd h (by simp only [finding?, hunsat, if_true, reduceCtorEq, not_false_eq_true])

end Solver

/-- The search answers alike whatever it was asked before: only its counts
    change. -/
theorem LocalSearch.solve_after (search : LocalSearch) (call : Call)
    (interruption : Option Interruption) (conditions : List (Option Term)) :
    ((search.solve call.interruption call.conditions).2.solve interruption conditions).1
      = (search.solve interruption conditions).1 :=
  rfl

/-- An answer for one of the lists that are asked about, when the search is called off at some
    point or not, is right for all of them that have its text. -/
def LocalSearch.Shared (search : LocalSearch) (asked : List (Option Term) → Prop) : Prop :=
  ∀ l l', asked l → asked l' → conditionKey l = conditionKey l' → ∀ i, Right l' (search.solve i l).1

namespace Memory

variable {κ : Type} {memory : Memory κ} {search : LocalSearch} {c c' : κ}
  {stored : List (String × Finding)} {asked : List (Option Term) → Prop}

/-- A remembered answer is given without a search. -/
theorem ask_of_hit {f : Finding} (search : LocalSearch) (call : Call)
    (h : memory.find? c (conditionKey call.conditions) = some (f, c')) :
    memory.ask search c call = (Solver.remembered f, search, c') := by
  rw [ask, h]

/-- Without a remembered answer there is a search, and its answer is remembered if it is one
    that can be. -/
theorem ask_of_miss (search : LocalSearch) (call : Call)
    (h : memory.find? c (conditionKey call.conditions) = none) :
    let answer := search.solve call.interruption call.conditions
    memory.ask search c call = (answer.1, answer.2, match Solver.finding? answer.1 with
      | some f => memory.store (memory.missed c) (conditionKey call.conditions) f
      | none => memory.missed c) := by
  simp only [ask, h]
  cases Solver.finding? (search.solve call.interruption call.conditions).1 <;> rfl

/-- Every finding is what the search says about a list that may be asked about and has the text
    that the finding was stored under. -/
def Sourced (asked : List (Option Term) → Prop) (search : LocalSearch)
    (stored : List (String × Finding)) : Prop :=
  ∀ e ∈ stored, ∃ conditions interruption, asked conditions ∧ conditionKey conditions = e.1 ∧
    Solver.finding? (search.solve interruption conditions).1 = some e.2

/-- If an answer for one list is right for all lists with its text, a run of
    calls is answered rightly. The induction is on the calls; that only findings of the search
    were stored is what carries it. -/
theorem rightThroughout_of_shared (hlawful : memory.Lawful) (hshared : search.Shared asked)
    (hreached : memory.Reached stored c) (hsourced : Sourced asked search stored)
    {calls : List Call} (hcalls : ∀ call ∈ calls, asked call.conditions) :
    memory.RightThroughout search c calls := by
  induction calls generalizing search c stored with
  | nil => exact trivial
  | cons call rest ih =>
      have hcall : asked call.conditions := hcalls call List.mem_cons_self
      have hrest : ∀ c ∈ rest, asked c.conditions :=
        fun c hc => hcalls c (List.mem_cons_of_mem _ hc)
      unfold RightThroughout
      cases hfind : memory.find? c (conditionKey call.conditions) with
      | some found =>
          rw [ask_of_hit search call hfind]
          refine ⟨?_, ih hshared (.found hreached hfind) hsourced hrest⟩
          -- The answer was found for some list `l` with the same text.
          obtain ⟨l, i, hl, hkey, hfinding⟩ := hsourced _ (hlawful.returns hreached hfind)
          exact (Solver.right_remembered hfinding _).2 (hshared l call.conditions hl hcall hkey i)
      | none =>
          -- The search goes on with other counts, and the same answers.
          have hnext : (search.solve call.interruption call.conditions).2.Shared asked := by
            intro l l' hl hl' hkey i
            rw [search.solve_after]
            exact hshared l l' hl hl' hkey i
          have hmissed := Reached.missed hreached hfind
          simp only [ask_of_miss search call hfind]
          refine ⟨search.solve_right call.interruption call.conditions, ?_⟩
          cases hfinding : Solver.finding? (search.solve call.interruption call.conditions).1 with
          | none => exact ih hnext hmissed hsourced hrest
          | some f =>
              refine ih hnext (.store _ f hmissed) (List.forall_mem_cons.2 ⟨?_, hsourced⟩) hrest
              exact ⟨call.conditions, call.interruption, hcall, rfl, hfinding⟩

/-- Two calls with one text give the answer of the first twice. -/
theorem right_of_rightThroughout (hlawful : memory.Lawful) {l l' : List (Option Term)}
    (hkey : conditionKey l = conditionKey l') {i : Option Interruption}
    (h : memory.RightThroughout search memory.empty [⟨i, l⟩, ⟨none, l'⟩]) :
    Right l' (search.solve i l).1 := by
  cases hf : Solver.finding? (search.solve i l).1 with
  | none => exact Solver.right_of_finding_none hf l'
  | some f =>
      -- The first call finds nothing and stores its answer, the second call finds it.
      have hmiss : memory.find? memory.empty (conditionKey l) = none := by
        cases hfind : memory.find? memory.empty (conditionKey l) with
        | none => rfl
        | some found => exact absurd (hlawful.returns .empty hfind) List.not_mem_nil
      obtain ⟨c', hfound⟩ := hlawful.finds (conditionKey l) f (.missed .empty hmiss)
      simp only [RightThroughout, ask_of_miss search ⟨i, l⟩ hmiss, hf] at h
      rw [hkey] at h hfound
      rw [ask_of_hit _ ⟨none, l'⟩ hfound] at h
      exact (Solver.right_remembered hf l').1 h.2.1

/-- A search with a memory is right throughout exactly if answers can be shared. -/
theorem rightThroughout_iff (hlawful : memory.Lawful) (search : LocalSearch)
    (asked : List (Option Term) → Prop) :
    (∀ calls : List Call, (∀ call ∈ calls, asked call.conditions) →
      memory.RightThroughout search memory.empty calls) ↔ search.Shared asked := by
  refine ⟨fun h l l' hl hl' hkey i => ?_, fun hshared calls hcalls => ?_⟩
  · refine right_of_rightThroughout hlawful hkey (h [⟨i, l⟩, ⟨none, l'⟩] ?_)
    intro call hcall
    rcases List.mem_cons.1 hcall with rfl | hcall
    · exact hl
    · rw [List.mem_singleton.1 hcall]
      exact hl'
  · exact rightThroughout_of_shared hlawful hshared .empty
      (fun e he => absurd he List.not_mem_nil) hcalls

end Memory

namespace ModelCache

/-- The memory with room for so many answers that forgets the least recently used one. -/
def memory (capacity : Nat) : Memory ModelCache where
  empty := { capacity := capacity }
  find? := find?
  missed := fun c => { c with misses := c.misses + 1 }
  store := store

/-- What is found was there, and nothing new is there after that. -/
theorem find?_spec {c c' : ModelCache} {key : String} {f : Finding}
    (h : c.find? key = some (f, c')) :
    (key, f) ∈ c.entries ∧ (∀ e ∈ c'.entries, e ∈ c.entries) ∧ c'.capacity = c.capacity := by
  unfold find? at h
  split at h
  · rename_i f' hlookup
    obtain ⟨rfl, rfl⟩ := Prod.mk.inj (Option.some.inj h)
    have hmem : (key, f') ∈ c.entries := by
      obtain ⟨before, after, hentries, -⟩ := List.lookup_eq_some_iff.1 hlookup
      rw [hentries]
      exact List.mem_append_right before List.mem_cons_self
    refine ⟨hmem, fun e he => ?_, rfl⟩
    rcases List.mem_cons.1 he with rfl | he
    · exact hmem
    · exact (List.mem_filter.1 he).1
  · cases h

/-- The entries are among what was stored, and there is as much room as in the beginning. -/
theorem entries_of_reached {capacity : Nat} {stored : List (String × Finding)} {c : ModelCache}
    (h : (memory capacity).Reached stored c) :
    (∀ e ∈ c.entries, e ∈ stored) ∧ c.capacity = capacity := by
  induction h with
  | empty => exact ⟨fun e he => he, rfl⟩
  | found _ hfind ih =>
      obtain ⟨-, hkept, hcapacity⟩ := find?_spec hfind
      exact ⟨fun e he => ih.1 e (hkept e he), hcapacity.trans ih.2⟩
  | missed _ _ ih => exact ih
  | store key f _ ih =>
      refine ⟨fun e he => ?_, ih.2⟩
      rcases List.mem_cons.1 (List.mem_of_mem_take he) with rfl | he
      · exact List.mem_cons_self
      · exact List.mem_cons_of_mem _ (ih.1 e (List.mem_filter.1 he).1)

/-- If there is room for any answer, a new one is found. -/
theorem memory_lawful {capacity : Nat} (hroom : 0 < capacity) : (memory capacity).Lawful where
  returns hreached hfind := (entries_of_reached hreached).1 _ (find?_spec hfind).1
  finds {stored c} key f hreached := by
    obtain ⟨n, hn⟩ : ∃ n, c.capacity = n + 1 :=
      ⟨capacity - 1, by rw [(entries_of_reached hreached).2]; omega⟩
    have hlookup : (c.store key f).entries.lookup key = some f := by
      simp only [store, hn, List.take_succ_cons, List.lookup_cons, beq_self_eq_true]
    exact ⟨_, by simp only [memory, find?, hlookup]; rfl⟩

end ModelCache

namespace Solver

/-- The solver asks its search with the memory. -/
theorem solve_remembering (search : LocalSearch) (cache : ModelCache) (capacity : Nat)
    (call : Call) :
    let reply := (ModelCache.memory capacity).ask search cache call
    (remembering search cache).solve call.interruption call.conditions
      = ⟨reply.1, remembering reply.2.1 reply.2.2, []⟩ := by
  simp only [solve, remembering, Memory.ask, ModelCache.memory]
  cases cache.find? (conditionKey call.conditions) with
  | some found => rfl
  | none =>
      simp only [ask, askFallback, Backend.solve]
      cases finding? (search.solve call.interruption call.conditions).1 <;> rfl

theorem rightThroughout_remembering (capacity : Nat) (calls : List Call) (search : LocalSearch)
    (cache : ModelCache) :
    (remembering search cache).RightThroughout calls ↔
      (ModelCache.memory capacity).RightThroughout search cache calls := by
  induction calls generalizing search cache with
  | nil => exact Iff.rfl
  | cons call rest ih =>
      rw [RightThroughout, solve_remembering search cache capacity, ih]
      rfl

/-- Remembering is harmless exactly when an answer for one of the lists that are
    asked about is right for all of them that have its text. This is so for every memory that
    finds under a text only what was stored under it, and finds what was just stored; the
    memory of the solver is one. -/
theorem remembering_right_iff (search : LocalSearch) (asked : List (Option Term) → Prop) :
    (∀ (κ : Type) (memory : Memory κ), memory.Lawful →
      ((∀ calls : List Call, (∀ call ∈ calls, asked call.conditions) →
        memory.RightThroughout search memory.empty calls) ↔
      ∀ l l', asked l → asked l' → conditionKey l = conditionKey l' →
        ∀ i, Right l' (search.solve i l).1)) ∧
    ∀ size cache, ModelCache.ofSize size = .ok cache →
      ((∀ calls : List Call, (∀ call ∈ calls, asked call.conditions) →
        (remembering search cache).RightThroughout calls) ↔
      ∀ l l', asked l → asked l' → conditionKey l = conditionKey l' →
        ∀ i, Right l' (search.solve i l).1) := by
  refine ⟨fun κ memory hlawful => Memory.rightThroughout_iff hlawful search asked,
    fun size cache hsize => ?_⟩
  unfold ModelCache.ofSize at hsize
  split at hsize
  · rename_i hpositive
    obtain rfl := Except.ok.inj hsize
    have hlawful : (ModelCache.memory size.toNat).Lawful := ModelCache.memory_lawful (by omega)
    refine Iff.trans ?_ (Memory.rightThroughout_iff hlawful search asked)
    simp only [rightThroughout_remembering size.toNat]
    rfl
  · cases hsize

/-- As long as one and the same list is asked about, remembering is
    harmless. -/
theorem remembering_right_repeated :
    ModelCache.ofSize 1 = .ok { capacity := 1 } ∧
    ∀ calls : List Call,
      (∀ call ∈ calls, call.conditions = [some (.symbol ⟨0, .boolean, .ofRoot "b"⟩)]) →
      (remembering (.ofSettings {}) { capacity := 1 }).RightThroughout calls := by
  have hsize : ModelCache.ofSize 1 = .ok { capacity := 1 } := rfl
  refine ⟨hsize, ((remembering_right_iff (.ofSettings {})
    (· = [some (.symbol ⟨0, .boolean, .ofRoot "b"⟩)])).2 1 _ hsize).2 ?_⟩
  intro l l' hl hl' _ i
  rw [hl', ← hl]
  exact LocalSearch.solve_right _ i l

/-- A field is negative or five, where the field is of the given type. -/
def negativeOrFive (p : Prim) : Term :=
  let x : Term := .symbol ⟨1, p, (Origin.ofRoot "x").push (.field "f")⟩
  .binary (.connective .or) (.binary (.comparison .lt) x (.const (.int 0)))
    (.binary (.comparison .eq) x (.const (.int 5)))

/-- Two calls of which the second is answered wrongly. The field is an integer
    on one path and a character on another, which the text does not say. The
    integer may be negative, and the character may not. -/
theorem remembering_wrong :
    conditionKey [some (negativeOrFive .int)] = conditionKey [some (negativeOrFive .char)] ∧
    ¬ (remembering (.ofSettings {}) { capacity := 1 }).RightThroughout
      [⟨none, [some (negativeOrFive .int)]⟩, ⟨none, [some (negativeOrFive .char)]⟩] := by
  have hkey : conditionKey [some (negativeOrFive .int)]
      = conditionKey [some (negativeOrFive .char)] := by
    decide
  refine ⟨hkey, fun h => ?_⟩
  have hright := Memory.right_of_rightThroughout (ModelCache.memory_lawful Nat.zero_lt_one) hkey
    ((rightThroughout_remembering 1 _ _ _).1 h)
  have hanswer : ((LocalSearch.ofSettings {}).solve none [some (negativeOrFive .int)]).1
      = .ok ⟨[(1, .int (-1))], by decide⟩ := by
    cbv
  rw [hanswer] at hright
  rcases hright _ (List.mem_singleton.2 rfl) with ⟨t, v, ht, heval, hv⟩
  rw [← Option.some.inj ht] at heval
  -- Converted to a character, minus one is the greatest one.
  have hfalse : Model.eval ⟨[(1, .int (-1))], by decide⟩ (negativeOrFive .char)
      = .ok (.boolean false) := by
    cbv
  rw [hfalse] at heval
  rw [← Except.ok.inj heval] at hv
  exact absurd hv (by decide)

end Solver

end PathWitness
