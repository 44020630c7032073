import PathWitness.Literal
import PathWitness.Scenario.Execution
import PathWitness.Search.Solver
import PathWitness.TestCase.Case

/-!
# Running Scenarios

All scripts of a scenario are executed in order, and the symbols of every path
that ended get values: those that the script gives, or those that a solver
finds. A path whose condition has no solution is dropped; one for which no
solution was found is kept without values.

The same solver answers for all scripts and for all scenarios, and one journal
is kept.

## Main definitions

* `givenModel`: The values that a script gives.
* `RunM`: Computations with a solver and a journal.
* `RunError`: Why a scenario cannot be run.
* `Scenario.run`: The paths of a scenario.
-/

namespace PathWitness

/-- Why a path cannot get values. -/
inductive AssignError where
  /-- An origin is malformed. -/
  | origin (error : OriginError)
  /-- A value is given to something that is not a primitive symbol. -/
  | notSymbol (entry : String) (value : Option Value)
  /-- A literal does not fit the type of its symbol. -/
  | literal (entry : String) (error : LiteralError)
  /-- The solver has no values. -/
  | solve (error : SolveError)

namespace AssignError

/-- The wording of an assign error. -/
def message : AssignError → String
  | origin e => e.message
  | notSymbol entry v =>
    "model entry " ++ entry ++ ": " ++ StepError.shown v ++ " is not a primitive symbol"
  | literal entry e => "model entry " ++ entry ++ ": " ++ e.message
  | solve e => e.message

/-- The kind of an assign error. -/
def kind : AssignError → ErrorKind
  | origin _ | notSymbol _ _ => .error
  | literal _ e => e.kind
  | solve e => e.kind

end AssignError

instance : Fault AssignError := ⟨AssignError.kind, AssignError.message⟩

/-- Adds an entry that a script gives. An entry for an origin that does not
    exist on the path is passed over. -/
def addGiven (s : PathState) (m : Model) (entry : String × String) :
    Except AssignError Model × List Event :=
  match Origin.parse entry.1 with
  | .error e => (.error (.origin e), [])
  | .ok o =>
    match ((PathState.lookup o).runOn s).1 with
    | .error e => (.ok m, [.entrySkipped entry.1 s.id e.message])
    | .ok (some (.term (.symbol x))) =>
      match Const.ofLiteral x.type.descriptor entry.2 with
      | .ok c => (.ok (m.set x c), [])
      | .error e => (.error (.literal entry.1 e), [])
    | .ok v => (.error (.notSymbol entry.1 v), [])

/-- The values that a script gives, put into a model one after another, and
    what happened on the way. -/
def givenModel (s : PathState) : List (String × String) → Model → Journal →
    Except AssignError Model × Journal
  | [], m, j => (.ok m, j)
  | entry :: rest, m, j =>
    match addGiven s m entry with
    | (.error e, events) => (.error e, events ++ j)
    | (.ok m, events) => givenModel s rest m (events ++ j)

/-- What a run works with. -/
structure RunState where
  /-- The solver, if values are searched for. -/
  solver : Option Solver := none
  /-- What happened, the latest first. -/
  journal : Journal := []

/-- Computations with a solver and a journal. -/
abbrev RunM (ε : Type) := ExceptT ε (StateM RunState)

namespace RunM

variable {ε α : Type}

/-- Runs a computation. -/
def runOn (m : RunM ε α) (r : RunState) : Except ε α × RunState :=
  StateT.run (ExceptT.run m) r

/-- Writes an event into the journal. -/
def record (e : Event) : RunM ε Unit :=
  modify fun r => { r with journal := e :: r.journal }

/-- A computation with other errors. -/
def mapError {ε' : Type} (inject : ε' → ε) (m : RunM ε' α) : RunM ε α :=
  ExceptT.mk fun r =>
    match m.runOn r with
    | (.ok a, r) => (.ok a, r)
    | (.error e, r) => (.error (inject e), r)

/-- Runs a computation on the journal. -/
def onJournal {ε' : Type} (inject : ε' → ε) (f : Journal → Except ε' α × Journal) : RunM ε α := do
  let (result, journal) := f (← get).journal
  modify fun r => { r with journal := journal }
  match result with
  | .ok a => return a
  | .error e => throw (inject e)

end RunM

/-- Asks the solver for values that satisfy the condition of a path. -/
def searchModel (canceled : Bool) (s : PathState) : RunM AssignError (Option Model) := do
  match (← get).solver with
  | none => return none
  | some solver =>
    let reply := solver.solve (Interruption.atStart canceled) (s.condition.conditions.map some)
    reply.lines.forM fun line => RunM.record (.told line)
    modify fun r => { r with solver := some reply.solver }
    match reply.answer with
    | .ok m => return some m
    | .error e => throw (.solve e)

/-- The values of the symbols of a path that ended: those that the script
    gives, or those that the solver finds. -/
def Script.assign (script : Script) (canceled : Bool) (s : PathState) :
    RunM AssignError (Option Model) :=
  match script.model with
  | some entries => do return some (← RunM.onJournal id (givenModel s entries .empty))
  | none => searchModel canceled s

/-- Why a script of a scenario has no paths. -/
inductive ScriptFailure where
  /-- The script does not lead through the method. -/
  | script (error : ScriptError)
  /-- A path cannot get values. -/
  | assign (error : AssignError)

namespace ScriptFailure

/-- The wording of a script failure. -/
def message : ScriptFailure → String
  | script e => e.message
  | assign e => e.message

/-- The kind of a script failure. -/
def kind : ScriptFailure → ErrorKind
  | script e => e.kind
  | assign e => e.kind

end ScriptFailure

/-- Why a scenario cannot be run. -/
inductive RunError where
  /-- The classes do not make a table. -/
  | classes (scenario : String) (error : ClassError)
  /-- The rules do not make a table. -/
  | rules (scenario : String) (error : RuleError)
  /-- The run was called off. -/
  | canceled
  /-- A script failed. -/
  | script (scenario name : String) (failure : ScriptFailure)

namespace RunError

/-- The wording of a run error. -/
def message : RunError → String
  | classes n e => "scenario " ++ Text.quoted n ++ ": " ++ e.message
  | rules n e => "scenario " ++ Text.quoted n ++ ": " ++ e.message
  | canceled => "context canceled"
  | script n p e => "scenario " ++ Text.quoted n ++ " path " ++ Text.quoted p ++ ": " ++ e.message

/-- The kind of a run error. -/
def kind : RunError → ErrorKind
  | classes _ _ | rules _ _ => .error
  | canceled => .canceled
  | script _ _ e => e.kind

end RunError

instance : Fault RunError := ⟨RunError.kind, RunError.message⟩

/-- The finished path of a state, with values for its symbols. There is none
    if the condition of the path has no solution. -/
def Script.finish (script : Script) (canceled : Bool) (entry s : PathState) :
    RunM AssignError (Option TestCase.FinishedPath) :=
  let finished : Option Model → Option TestCase.FinishedPath := fun m => some ⟨entry, s, m⟩
  tryCatch (do return finished (← script.assign canceled s)) fun e => do
    match e.kind with
    | .unsat =>
      RunM.record (.unsatisfiable s.id script.name)
      return none
    | .unknown =>
      RunM.record (.modelless s.id script.name e.message)
      return finished none
    | _ => throw e

namespace Scenario

/-- The finished paths of the script with an index. -/
def runScript (s : Scenario) (env : Environment Failure) (canceled : Bool) (index : Nat)
    (script : Script) : RunM ScriptFailure (List TestCase.FinishedPath) := do
  match s.entryState index with
  | .error e => throw (.script e)
  | .ok entry =>
    let finals ← RunM.onJournal .script (script.execute env entry)
    let paths ← finals.mapM fun final => (script.finish canceled entry final).mapError .assign
    return paths.filterMap id

/-- The finished paths of scripts, the first of which has the given index. -/
def runScripts (s : Scenario) (env : Environment Failure) (canceled : Bool) :
    Nat → List Script → RunM RunError (List TestCase.FinishedPath)
  | _, [] => return []
  | i, script :: rest => do
    if canceled then throw .canceled
    let paths ← (s.runScript env canceled i script).mapError (.script s.name script.name)
    return paths ++ (← s.runScripts env canceled (i + 1) rest)

/-- The paths of a scenario under some rules that come before its own. -/
def run (s : Scenario) (extra : List RuleSpec) (canceled : Bool) :
    RunM RunError (List TestCase.FinishedPath) := do
  match ClassTable.ofList s.classes with
  | .error e => throw (.classes s.name e)
  | .ok classes =>
    match RuleTable.ofList (extra ++ s.rules) with
    | .error e => throw (.rules s.name e)
    | .ok rules =>
      let paths ← s.runScripts (s.environment classes rules) canceled 0 s.scripts
      RunM.record (.produced s.name paths.length)
      return paths

end Scenario

end PathWitness
