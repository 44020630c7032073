import PathWitness.Search.Cache
import PathWitness.Search.Settings

/-!
# Solvers

A solver answers with a model of the conditions it is asked about. It has a
backend, possibly a preferred one that is asked first, and possibly a memory
for answers. The state of a solver is its memory and its counts, so asking
gives back the solver to ask next.

## Main definitions

* `SolveError`: Why there is no model.
* `LocalSearch`: The backtracking search, with counts of its answers.
* `Backend`: What answers questions.
* `Solver`: Backends and a memory.
* `Solver.ofSettings`: The solver that settings describe.
* `Solver.solve`: Asks a solver.
-/

namespace PathWitness

/-- Why there is no model. -/
inductive SolveError where
  /-- The search gave none. -/
  | search (error : SearchError)
  /-- There is none, as was found before or by other means. -/
  | unsatisfiable
  /-- A backend has no answer. -/
  | noAnswer
  /-- A backend failed. -/
  | backend (message : String)

namespace SolveError

/-- The wording of a solve error. -/
def message : SolveError → String
  | search e => e.message
  | unsatisfiable => "unsatisfiable"
  | noAnswer => "solver gave no answer"
  | backend m => m

/-- The kind of a solve error. -/
def kind : SolveError → ErrorKind
  | search e => e.kind
  | unsatisfiable => .unsat
  | noAnswer => .unknown
  | backend _ => .error

/-- The error says that there is no model. -/
def isUnsat (e : SolveError) : Bool :=
  e.kind == .unsat

end SolveError

instance : Fault SolveError := ⟨SolveError.kind, SolveError.message⟩

/-- The message of the external backend when it cannot be started. -/
def externalUnavailable : String :=
  "Z3 solver not available - rebuild with '-tags z3' to enable"

/-- The message of the external backend when it is asked all the same. -/
def externalUnanswered : String :=
  "Z3 solver not available"

/-- How often a search gave which answer. -/
structure SearchCounts where
  /-- All questions. -/
  total : Nat := 0
  /-- Questions with a model. -/
  sat : Nat := 0
  /-- Questions that have none. -/
  unsat : Nat := 0
  /-- Questions without an answer. -/
  unknown : Nat := 0
  deriving Repr, DecidableEq, Inhabited

/-- The counts after one more answer. -/
def SearchCounts.add {α : Type} (n : SearchCounts) : Except SolveError α → SearchCounts
  | .ok _ => { n with total := n.total + 1, sat := n.sat + 1 }
  | .error e =>
    if e.isUnsat then { n with total := n.total + 1, unsat := n.unsat + 1 }
    else { n with total := n.total + 1, unknown := n.unknown + 1 }

/-- The backtracking search, with counts of its answers. -/
structure LocalSearch where
  /-- How far the search goes. -/
  settings : SearchSettings
  /-- The answers so far. -/
  counts : SearchCounts := {}

namespace LocalSearch

/-- A search with settings, of which some may be left out. -/
def ofSettings (settings : SearchSettings) : LocalSearch :=
  ⟨settings.withDefaults, {}⟩

/-- What bounds one search. -/
def limits (s : LocalSearch) (interruption : Option Interruption) : SearchLimits :=
  ⟨s.settings.maxCandidates, s.settings.maxSteps, interruption⟩

/-- Searches for a model. -/
def solve (s : LocalSearch) (interruption : Option Interruption) (conditions : List (Option Term)) :
    Except SolveError Model × LocalSearch :=
  let answer := (Search.solve (s.limits interruption) conditions).mapError .search
  (answer, { s with counts := s.counts.add answer })

end LocalSearch

/-- What answers questions. -/
inductive Backend where
  /-- The backtracking search. -/
  | searching (search : LocalSearch)
  /-- A backend that never has a model, for one and the same reason. -/
  | refusing (error : SolveError)

/-- Asks a backend. -/
def Backend.solve (b : Backend) (interruption : Option Interruption)
    (conditions : List (Option Term)) : Except SolveError Model × Backend :=
  match b with
  | .searching s =>
    let (answer, s) := s.solve interruption conditions
    (answer, .searching s)
  | .refusing e => (.error e, .refusing e)

/-- Backends and a memory. -/
structure Solver where
  /-- The backend that is asked first. -/
  preferred : Option Backend := none
  /-- The backend that is asked when there is no other or it has no answer. -/
  fallback : Backend
  /-- Remembered answers. -/
  cache : Option ModelCache := none

/-- Why settings describe no solver. -/
inductive SolverError where
  /-- There is no such strategy. -/
  | unknownStrategy (strategy : String)
  /-- The memory has no room. -/
  | capacity (error : CapacityError)
  deriving Repr, DecidableEq

/-- The wording of a solver error. -/
def SolverError.message : SolverError → String
  | unknownStrategy s => "unknown solver strategy " ++ Text.quoted s
  | capacity e => e.message

instance : Fault SolverError := ⟨fun _ => .error, SolverError.message⟩

namespace Solver

/-- Tells that the external backend cannot be started. -/
def startWarning : String :=
  "[Solver] Warning: Failed to initialize Z3: " ++ externalUnavailable ++
    ", falling back to local only"

/-- The warnings that a strategy gives rise to. The external backend is not
    there, so asking for it leaves the search alone. -/
def strategyWarnings (strategy : String) : Except SolverError (List String) :=
  match strategy with
  | "local" => .ok []
  | "z3" | "hybrid" => .ok [startWarning]
  | s => .error (.unknownStrategy s)

/-- The solver that settings describe, and the warnings on the way. When there
    is no solver, the warnings have still been given. -/
def ofSettings (settings : SearchSettings) : Except SolverError Solver × List String :=
  let settings := settings.withDefaults
  match strategyWarnings settings.strategy with
  | .error e => (.error e, [])
  | .ok warnings =>
    let backend := Backend.searching (.ofSettings settings)
    if settings.useCache then
      match ModelCache.ofSize settings.cacheSize with
      | .ok cache => (.ok { fallback := backend, cache := some cache }, warnings)
      | .error e => (.error (.capacity e), warnings)
    else (.ok { fallback := backend }, warnings)

/-- An answer, the solver to ask next, and the lines that were told. -/
structure Reply where
  /-- The answer. -/
  answer : Except SolveError Model
  /-- The solver to ask next. -/
  solver : Solver
  /-- The lines that were told. -/
  lines : List String := []

/-- Asks the fallback. -/
def askFallback (s : Solver) (interruption : Option Interruption) (conditions : List (Option Term))
    (lines : List String) : Reply :=
  let (answer, fallback) := s.fallback.solve interruption conditions
  ⟨answer, { s with fallback := fallback }, lines⟩

/-- Asks the backends: the preferred one first, and the fallback unless that
    has a model or knows that there is none. -/
def ask (s : Solver) (interruption : Option Interruption) (conditions : List (Option Term)) :
    Reply :=
  match s.preferred with
  | none => s.askFallback interruption conditions []
  | some b =>
    let (answer, b) := b.solve interruption conditions
    let s := { s with preferred := some b }
    match answer with
    | .ok m => ⟨.ok m, s, []⟩
    | .error e =>
      if e.isUnsat then ⟨.error e, s, []⟩
      else s.askFallback interruption conditions
        ["[Solver] Z3 failed: " ++ e.message ++ ", falling back to local solver"]

/-- A remembered answer. -/
def remembered : Finding → Except SolveError Model
  | .model m => .ok m
  | .unsatisfiable => .error .unsatisfiable

/-- What of an answer is remembered. -/
def finding? : Except SolveError Model → Option Finding
  | .ok m => some (.model m)
  | .error e => if e.isUnsat then some .unsatisfiable else none

/-- Asks a solver. A remembered answer is given without asking a backend. -/
def solve (s : Solver) (interruption : Option Interruption) (conditions : List (Option Term)) :
    Reply :=
  match s.cache with
  | none => s.ask interruption conditions
  | some cache =>
    let key := conditionKey conditions
    match cache.find? key with
    | some (f, cache) => ⟨remembered f, { s with cache := some cache }, []⟩
    | none =>
      let cache := { cache with misses := cache.misses + 1 }
      let reply := { s with cache := none }.ask interruption conditions
      let cache :=
        match finding? reply.answer with
        | some f => cache.store key f
        | none => cache
      { reply with solver := { reply.solver with cache := some cache } }

end Solver

end PathWitness
