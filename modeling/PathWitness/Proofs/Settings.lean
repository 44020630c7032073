import PathWitness.Proofs.Search.Exhaustive
import PathWitness.Settings

/-!
# Settings that Pass the Check

Settings are checked once, before a solver is made of them, and the solver takes them as
they are. The check knows the strategies and refuses a memory of a negative size. With the
defaults filled in the size is not zero either, so there is room for an answer, and settings
that pass the check always describe a solver.

The check does not look at the number of values to try for a symbol. A list of integers
cannot be cut to a negative length, so with a negative number a search breaks down. It does
so exactly if it gets to the seeds of an integer: floating-point numbers and booleans are not
cut, conditions that are refused or decided beforehand are not searched, and an answer that is
remembered is given without a search.

## Main definitions

* `Search.SeedsIntegers`: Conditions for which integers have to be tried.
* `Solver.Reply.breaksDown`: A list was to be cut to a negative length.
* `Solver.SearchesWith`: A solver that searches with given settings.
* `Solver.afterAll`: The solver after a run of questions.

## Theorems

* `Seed.values_eq_error_iff`: When there are no seeds.
* `Search.solve_eq_seeds_iff`: When a search breaks down.
* `Solver.solve_searching`: What one question does to a solver.
* `Settings.ofSettings_of_check`: Settings that pass the check describe a solver.
* `Settings.validated_breaksDown_iff`: When the solver of settings that pass the check breaks
  down.
-/

namespace PathWitness

/-- A list is cut to any length but a negative one, and only lists of integers are. -/
theorem Seed.values_eq_error_iff {p : Prim} {constants : List Const} {limit : Int}
    {e : NegativeLimit} :
    values p constants limit = .error e ↔ e = ⟨limit⟩ ∧ limit < 0 ∧ p.isInteger = true := by
  unfold values
  by_cases hboolean : p = .boolean
  · simp [hboolean, Prim.isInteger]
  · by_cases hfloating : p.isFloating = true
    · simp [hboolean, hfloating, Prim.isInteger, Prim.isIntegral]
    · have hinteger : p.isInteger = true := by
        simp [Prim.isInteger, Prim.isIntegral, hboolean, hfloating]
      rw [if_neg hboolean, if_neg hfloating]
      by_cases hlimit : limit < 0
      · rw [if_pos hlimit, Except.error.injEq, eq_comm]
        simp [hinteger, hlimit]
      · simp [hlimit]

namespace Search

/-- Conditions for which integers have to be tried. -/
structure SeedsIntegers (conditions : List Term) : Prop where
  /-- The conditions are boolean. -/
  boolean : ∀ c ∈ conditions, c.type = .boolean
  /-- Those without symbols are true. -/
  closed : ∀ c ∈ conditions, c.symbols = [] →
    ∃ v, Model.empty.eval c = .ok v ∧ v.toBool = true
  /-- One of the symbols is an integer. -/
  integer : ∃ x ∈ mentioned conditions, x.type.isInteger = true

variable {cs : List Term} {limits : SearchLimits}

theorem holds_iff {m : Model} {c : Term} :
    holds m c = .ok true ↔ ∃ v, m.eval c = .ok v ∧ v.toBool = true := by
  refine ⟨eval_of_holds, ?_⟩
  rintro ⟨v, heval, hv⟩
  rw [holds, heval, ← hv]

/-- Conditions are asked about if they are boolean. -/
theorem questions_eq_ok_iff {i : Nat} {qs : List Question} :
    questions i (cs.map some) = .ok qs ↔ qs = cs.map ask ∧ ∀ c ∈ cs, c.type = .boolean := by
  induction cs generalizing i qs with
  | nil =>
      simp only [List.map_nil, questions, Except.ok.injEq, List.not_mem_nil, false_implies,
        implies_true, and_true]
      exact eq_comm
  | cons c rest ih =>
      rw [List.map_cons, List.map_cons, List.forall_mem_cons]
      by_cases hboolean : c.type = .boolean
      · simp only [questions, if_pos hboolean]
        cases hrest : questions (i + 1) (rest.map some) with
        | error e =>
            have hnot : ¬ ∀ c ∈ rest, c.type = .boolean := fun h => by
              rw [ih.2 ⟨rfl, h⟩] at hrest
              cases hrest
            simp [bind, Except.bind, hnot]
        | ok others =>
            obtain ⟨rfl, hothers⟩ := ih.1 hrest
            simp only [bind, Except.bind, pure, Except.pure, Except.ok.injEq]
            exact ⟨fun h => ⟨h.symm, hboolean, hothers⟩, fun h => h.1.symm⟩
      · simp [questions, hboolean]

/-- The conditions without symbols are decided in favour if they hold. -/
theorem decideClosed_eq_ok_iff {symbols : List PrimSymbol} :
    decideClosed symbols (cs.map ask) = .ok () ↔
      ∀ c ∈ cs, c.occurrences = [] → holds .empty c = .ok true := by
  induction cs with
  | nil => simp [decideClosed]
  | cons c rest ih =>
      rw [List.map_cons, List.forall_mem_cons, ← ih]
      by_cases hnone : c.occurrences = []
      · have hclosed := (lastPlace?_ask symbols).2 hnone
        simp only [decideClosed, hclosed, hnone, forall_const]
        rw [show (ask c).condition = c from rfl]
        cases hc : holds .empty c with
        | error e => simp [bind, Except.bind]
        | ok b => cases b <;> simp [bind, Except.bind]
      · have hsome : lastPlace? symbols (ask c) ≠ none := fun h => hnone ((lastPlace?_ask _).1 h)
        obtain ⟨i, hi⟩ := Option.ne_none_iff_exists'.1 hsome
        simp only [decideClosed, hi, hnone, false_implies, true_and]

/-- With levels there are seeds for all symbols. -/
theorem values_of_levels {symbols : List PrimSymbol} {qs : List Question}
    {rest : List PrimSymbol} {start : Nat} {ls : List Level}
    (h : levels limits symbols qs start rest = .ok ls) :
    ∀ x ∈ rest, ∃ values,
      Seed.values x.type (qs.flatMap (·.condition.constants)) limits.maxCandidates
        = .ok values := by
  induction rest generalizing start ls with
  | nil => exact fun x hx => absurd hx List.not_mem_nil
  | cons x rest ih =>
      simp only [levels] at h
      split at h
      · cases h
      · rename_i values hvalues
        obtain ⟨below, hbelow, -⟩ := bind_eq_ok h
        exact List.forall_mem_cons.2 ⟨⟨values, hvalues⟩, ih hbelow⟩

/-- There are no levels if a list of integers is to be cut to a negative length. -/
theorem levels_eq_error_iff {symbols : List PrimSymbol} {qs : List Question}
    {rest : List PrimSymbol} {start : Nat} {e : SearchError} :
    levels limits symbols qs start rest = .error e ↔ e = .seeds ⟨limits.maxCandidates⟩ ∧
      limits.maxCandidates < 0 ∧ ∃ x ∈ rest, x.type.isInteger = true := by
  constructor
  · intro h
    obtain ⟨x, hx, e', hseeds, rfl⟩ := levels_error h
    obtain ⟨rfl, hlimit, hinteger⟩ := Seed.values_eq_error_iff.1 hseeds
    exact ⟨rfl, hlimit, x, hx, hinteger⟩
  · rintro ⟨rfl, hlimit, x, hx, hinteger⟩
    cases h : levels limits symbols qs start rest with
    | error e =>
        obtain ⟨y, -, e', hseeds, rfl⟩ := levels_error h
        rw [(Seed.values_eq_error_iff.1 hseeds).1]
    | ok ls =>
        obtain ⟨values, hvalues⟩ := values_of_levels h x hx
        rw [Seed.values_eq_error_iff.2 ⟨rfl, hlimit, hinteger⟩] at hvalues
        cases hvalues

/-- A plan fails for want of seeds exactly if integers have to be tried and no list can be cut
    to the limit. -/
theorem plan_eq_seeds_iff {e : Seed.NegativeLimit} :
    plan limits (cs.map some) = .error (.seeds e) ↔
      e = ⟨limits.maxCandidates⟩ ∧ limits.maxCandidates < 0 ∧ SeedsIntegers cs := by
  constructor
  · intro h
    unfold plan at h
    cases hqs : questions 0 (cs.map some) with
    | error e' =>
        rw [hqs] at h
        obtain rfl : e' = .seeds e := Except.error.inj h
        cases isMalformed_of_questions_error hqs
    | ok qs =>
        obtain ⟨rfl, hboolean⟩ := questions_eq_ok_iff.1 hqs
        rw [hqs] at h
        simp only [bind, Except.bind, order_ask] at h
        cases hclosed : decideClosed (mentioned cs) (cs.map ask) with
        | error e' =>
            rw [hclosed] at h
            obtain rfl : e' = .seeds e := Except.error.inj h
            -- Deciding a condition fails in other ways.
            rcases decideClosed_error hclosed with htrial | ⟨q, -, hunsatisfiable, -⟩
            · cases htrial
            · cases hunsatisfiable
        | ok _ =>
            rw [hclosed] at h
            obtain ⟨hseeds, hlimit, hinteger⟩ := levels_eq_error_iff.1 h
            refine ⟨SearchError.seeds.inj hseeds, hlimit, hboolean, fun c hc hnone => ?_, hinteger⟩
            exact holds_iff.1 (decideClosed_eq_ok_iff.1 hclosed c hc
              (Term.symbols_eq_nil_iff.1 hnone))
  · rintro ⟨rfl, hlimit, hseeds⟩
    have hqs := (questions_eq_ok_iff (i := 0)).2 ⟨rfl, hseeds.boolean⟩
    have hclosed : decideClosed (mentioned cs) (cs.map ask) = .ok () :=
      decideClosed_eq_ok_iff.2 fun c hc hnone => holds_iff.2
        (hseeds.closed c hc (Term.symbols_eq_nil_iff.2 hnone))
    have hlevels : levels limits (mentioned cs) (cs.map ask) 0 (mentioned cs)
        = .error (.seeds ⟨limits.maxCandidates⟩) :=
      levels_eq_error_iff.2 ⟨rfl, hlimit, hseeds.integer⟩
    simp only [plan, hqs, bind, Except.bind, order_ask, hclosed, hlevels]

/-- A search breaks down exactly if integers have to be tried and no list can be cut to the
    limit: once there is a plan it does not. -/
theorem solve_eq_seeds_iff {e : Seed.NegativeLimit} :
    solve limits (cs.map some) = .error (.seeds e) ↔
      e = ⟨limits.maxCandidates⟩ ∧ limits.maxCandidates < 0 ∧ SeedsIntegers cs := by
  rw [← plan_eq_seeds_iff]
  unfold solve
  cases hplan : plan limits (cs.map some) with
  | error e' => simp only [bind, Except.bind, Except.error.injEq]
  | ok ls =>
      simp only [bind, Except.bind, reduceCtorEq, iff_false]
      intro h
      split at h
      · cases h
      · cases h
      · rename_i e' hfailed
        obtain rfl : e' = .seeds e := Except.error.inj h
        cases assign_failed hfailed

end Search

namespace Solver

/-- There is no answer, because a list was to be cut to a negative length. -/
def Reply.breaksDown (r : Reply) : Bool :=
  match r.answer with
  | .error (.search (.seeds _)) => true
  | _ => false

/-- A solver that asks nobody but the search, which has the given settings. -/
structure SearchesWith (settings : SearchSettings) (s : Solver) : Prop where
  preferred : s.preferred = none
  fallback : ∃ counts, s.fallback = .searching ⟨settings, counts⟩

/-- The solver has an answer for some conditions in its memory. -/
def recalls (s : Solver) (conditions : List (Option Term)) : Bool :=
  (s.cache.bind (·.entries.lookup (conditionKey conditions))).isSome

/-- The solver after a run of questions, each of which may be called off. -/
def afterAll (s : Solver) : List (Option Interruption × List Term) → Solver
  | [] => s
  | (interruption, conditions) :: rest =>
    (s.solve interruption (conditions.map some)).solver.afterAll rest

variable {settings : SearchSettings} {s : Solver}

/-- Without a memory a question is passed on to the search, of which only the counts change. -/
theorem ask_searching (h : s.SearchesWith settings) (interruption : Option Interruption)
    (conditions : List (Option Term)) :
    (s.ask interruption conditions).solver.SearchesWith settings ∧
      (s.ask interruption conditions).answer =
        (Search.solve ⟨settings.maxCandidates, settings.maxSteps, interruption⟩
          conditions).mapError .search := by
  obtain ⟨counts, hfallback⟩ := h.fallback
  simp only [ask, h.preferred, askFallback, hfallback, Backend.solve]
  exact ⟨⟨rfl, _, rfl⟩, rfl⟩

/-- A question is answered from memory or by a search, and it leaves a solver that searches
    alike. -/
theorem solve_searching (h : s.SearchesWith settings) (interruption : Option Interruption)
    (conditions : List (Option Term)) :
    (s.solve interruption conditions).solver.SearchesWith settings ∧
      (s.recalls conditions = true ∧
          (∃ f, (s.solve interruption conditions).answer = remembered f) ∨
        s.recalls conditions = false ∧ (s.solve interruption conditions).answer =
          (Search.solve ⟨settings.maxCandidates, settings.maxSteps, interruption⟩
            conditions).mapError .search) := by
  unfold solve recalls
  cases hcache : s.cache with
  | none =>
      obtain ⟨hsolver, hanswer⟩ := ask_searching h interruption conditions
      exact ⟨hsolver, .inr ⟨rfl, hanswer⟩⟩
  | some cache =>
      simp only [ModelCache.find?, Option.bind_some]
      cases cache.entries.lookup (conditionKey conditions) with
      | some f => exact ⟨⟨h.preferred, h.fallback⟩, .inl ⟨rfl, f, rfl⟩⟩
      | none =>
          -- The backends do not see the memory.
          have hblank : ({ s with cache := none } : Solver).SearchesWith settings :=
            ⟨h.preferred, h.fallback⟩
          obtain ⟨hsolver, hanswer⟩ := ask_searching hblank interruption conditions
          exact ⟨⟨hsolver.preferred, hsolver.fallback⟩, .inr ⟨rfl, hanswer⟩⟩

/-- Every question leaves a solver that searches alike. -/
theorem SearchesWith.afterAll (h : s.SearchesWith settings)
    (history : List (Option Interruption × List Term)) :
    (s.afterAll history).SearchesWith settings := by
  induction history generalizing s with
  | nil => exact h
  | cons q rest ih => exact ih (solve_searching h q.1 (q.2.map some)).1

theorem breaksDown_of_search {r : Reply} {x : Except SearchError Model}
    (h : r.answer = x.mapError .search) : r.breaksDown = true ↔ ∃ e, x = .error (.seeds e) := by
  cases x with
  | ok m => simp [Reply.breaksDown, h, Except.mapError]
  | error e => cases e <;> simp [Reply.breaksDown, h, Except.mapError]

/-- A question makes a solver break down exactly if no list can be cut to the limit, integers
    have to be tried, and no answer is remembered. -/
theorem SearchesWith.breaksDown_iff (h : s.SearchesWith settings)
    (interruption : Option Interruption) (cs : List Term) :
    (s.solve interruption (cs.map some)).breaksDown = true ↔
      settings.maxCandidates < 0 ∧ Search.SeedsIntegers cs ∧ s.recalls (cs.map some) = false := by
  rcases (solve_searching h interruption (cs.map some)).2 with
    ⟨hrecalls, f, hanswer⟩ | ⟨hrecalls, hanswer⟩
  · -- A model is remembered, or that there is none.
    cases f <;> simp [Reply.breaksDown, hanswer, hrecalls, remembered]
  · rw [breaksDown_of_search hanswer]
    simp [Search.solve_eq_seeds_iff, hrecalls]

end Solver

namespace Settings

variable {s : Settings}

/-- What is filled in is not filled in again. -/
theorem filled_filled {α : Type} [DecidableEq α] (a blank d : α) :
    (if (if a = blank then d else a) = blank then d else if a = blank then d else a)
      = if a = blank then d else a := by
  by_cases h : a = blank
  · simp only [if_pos h, ite_self]
  · simp only [if_neg h]

theorem withDefaults_withDefaults (c : SearchSettings) :
    c.withDefaults.withDefaults = c.withDefaults := by
  unfold SearchSettings.withDefaults
  congr 1 <;> exact filled_filled _ _ _

/-- Settings that pass the check have a strategy that there is and room for an answer. -/
theorem of_check (h : s.withDefaults.check = .ok ()) :
    s.withDefaults.search.strategy ∈ strategies ∧ 0 < s.withDefaults.search.cacheSize := by
  unfold check at h
  split at h
  · cases h
  · rename_i hstrategy
    split at h
    · cases h
    · rename_i hsize
      refine ⟨List.contains_iff_mem.1 (by simpa using hstrategy), ?_⟩
      -- The default stands in for a size of zero.
      have hne : s.withDefaults.search.cacheSize ≠ 0 := by
        show (if s.search.cacheSize = 0 then (1000 : Int) else s.search.cacheSize) ≠ 0
        split <;> omega
      omega

/-- Settings that pass the check describe a solver, which searches with them. -/
theorem ofSettings_of_check (h : s.withDefaults.check = .ok ()) :
    ∃ solver, (Solver.ofSettings s.withDefaults.search).1 = .ok solver ∧
      solver.SearchesWith s.withDefaults.search := by
  obtain ⟨hstrategy, hsize⟩ := of_check h
  have hdefaults : s.withDefaults.search.withDefaults = s.withDefaults.search :=
    withDefaults_withDefaults s.search
  obtain ⟨warnings, hwarnings⟩ : ∃ warnings,
      Solver.strategyWarnings s.withDefaults.search.strategy = .ok warnings := by
    simp only [strategies, List.mem_cons, List.not_mem_nil, or_false] at hstrategy
    rcases hstrategy with hs | hs | hs <;> rw [hs] <;> exact ⟨_, rfl⟩
  have hbackend : LocalSearch.ofSettings s.withDefaults.search = ⟨s.withDefaults.search, {}⟩ := by
    rw [LocalSearch.ofSettings, hdefaults]
  simp only [Solver.ofSettings, hdefaults, hwarnings, hbackend, ModelCache.ofSize, if_pos hsize]
  split
  · exact ⟨_, rfl, rfl, {}, rfl⟩
  · exact ⟨_, rfl, rfl, {}, rfl⟩

/-- Settings that pass the check describe a solver, and after any run of questions the solver
    breaks down exactly if the number of values to try is negative, an integer has to be tried,
    and no answer is remembered. -/
theorem validated_breaksDown_iff (h : s.withDefaults.check = .ok ()) :
    ∃ solver, (Solver.ofSettings s.withDefaults.search).1 = .ok solver ∧
      ∀ (history : List (Option Interruption × List Term)) (interruption : Option Interruption)
        (cs : List Term),
        ((solver.afterAll history).solve interruption (cs.map some)).breaksDown = true ↔
          s.withDefaults.search.maxCandidates < 0 ∧ Search.SeedsIntegers cs ∧
            (solver.afterAll history).recalls (cs.map some) = false := by
  obtain ⟨solver, hsolver, hsearches⟩ := ofSettings_of_check h
  exact ⟨solver, hsolver, fun history interruption cs =>
    (hsearches.afterAll history).breaksDown_iff interruption cs⟩

/-- Settings with a backend that is not there, a memory, and no sense of numbers. -/
def carelessSettings : Settings :=
  { search := { strategy := "hybrid", useCache := true, maxCandidates := -2, maxSteps := -5 } }

/-- They pass the check. -/
theorem validated_breaksDown_careless : carelessSettings.withDefaults.check = .ok () ∧
    ∃ solver, (Solver.ofSettings carelessSettings.withDefaults.search).1 = .ok solver ∧
      ∀ (history : List (Option Interruption × List Term)) (interruption : Option Interruption)
        (cs : List Term),
        ((solver.afterAll history).solve interruption (cs.map some)).breaksDown = true ↔
          carelessSettings.withDefaults.search.maxCandidates < 0 ∧ Search.SeedsIntegers cs ∧
            (solver.afterAll history).recalls (cs.map some) = false :=
  ⟨by decide, validated_breaksDown_iff (by decide)⟩

/-- A negative number of values passes the check, and a positive integer cannot be searched
    for. -/
theorem negative_candidates_break :
    let s : Settings := { search := { maxCandidates := -1 } }
    s.withDefaults.check = .ok () ∧
    ∃ solver, (Solver.ofSettings s.withDefaults.search).1 = .ok solver ∧
      (solver.solve none [some (.binary (.comparison .gt) (.symbol ⟨0, .int, .ofRoot "i"⟩)
        (.const (.int 0)))]).breaksDown = true := by
  exact ⟨by decide, _, rfl, by decide⟩

end Settings

end PathWitness
