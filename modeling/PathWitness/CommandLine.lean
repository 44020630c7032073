import PathWitness.CommandLine.Arguments
import PathWitness.Scenario.Document
import PathWitness.Scenario.Run
import PathWitness.Settings.Document
import PathWitness.TestCase.Generator

/-!
# The Command

The command reads scenarios from files and writes one test class with the
tests of all their paths. It works with a console: a way to read and write
files, to print, and to log. What it does is the same whatever the console
does with that.

## Main definitions

* `Console`: What the command needs of its surroundings.
* `Command.settings`: The settings of a run.
* `Command.generate`: Makes tests of scenario files.
* `Command.run`: Runs the command.
-/

namespace PathWitness

/-- What the command needs of its surroundings. A file that cannot be read or
    written gives the reason in words. -/
structure Console (m : Type → Type) where
  /-- The text of a file. -/
  read : String → m (Except String String)
  /-- Writes a text to a file. -/
  write : String → String → m (Except String Unit)
  /-- Prints a text. -/
  print : String → m Unit
  /-- Logs a line. -/
  log : String → m Unit

namespace Command

variable {m : Type → Type} [Monad m]

/-- Computations of the command, which fail with a message. -/
abbrev CommandM (m : Type → Type) := ExceptT String m

/-- Something that the console does. -/
def perform {α : Type} (action : m α) : CommandM m α :=
  ExceptT.lift action

/-- A result whose error is given in words. -/
def require {ε α : Type} (message : ε → String) (r : Except ε α) : CommandM m α :=
  match r with
  | .ok a => pure a
  | .error e => throw (message e)

/-- Logs lines. -/
def logAll (c : Console m) (lines : List String) : CommandM m Unit :=
  lines.forM fun line => perform (c.log line)

/-- A line about the command itself. -/
def tagged (text : String) : String :=
  "[Main] " ++ text

/-- The settings of a run: those of a file, if one is named, with what was
    said on the command line. -/
def settings (c : Console m) (a : Arguments) : CommandM m Settings := do
  let base ← if a.config = "" then pure Settings.default
    else require Settings.LoadError.message (Settings.load a.config (← perform (c.read a.config)))
  let s := (a.override base).withDefaults
  require SettingsFault.message s.check
  return s

/-- The solver that settings describe. -/
def solver (c : Console m) (s : Settings) : CommandM m Solver := do
  let (r, warnings) := Solver.ofSettings s.search
  logAll c warnings
  require (fun e => "failed to create solver: " ++ e.message) r

/-- The rules for all scenarios. -/
def sharedRules (c : Console m) (file : String) : CommandM m (List RuleSpec) := do
  if file = "" then return []
  let text ← require (fun cause => "failed to read rules file: " ++ cause) (← perform (c.read file))
  let table ← require (fun e => file ++ ": " ++ RuleDocumentError.message e) (RuleTable.parse text)
  logAll c [tagged ("Loaded " ++ toString table.size ++ " trigger rules from " ++ file)]
  return table.rules.map Rule.spec

/-- The scenario of a file, which is named like the file if it has no name. -/
def scenario (c : Console m) (file : String) : CommandM m Scenario := do
  let text ← require (fun cause => "failed to read scenario: " ++ cause) (← perform (c.read file))
  let s ← require (fun e => file ++ ": " ++ ScenarioDocumentError.message e) (Scenario.parse text)
  return if s.name = "" then { s with name := file } else s

/-- The paths of scenario files, all found with the same solver. -/
def paths (c : Console m) (s : Settings) (extra : List RuleSpec) :
    List String → Solver → CommandM m (List TestCase.FinishedPath)
  | [], _ => return []
  | file :: rest, solver => do
    let sc ← scenario c file
    let (r, after) := (sc.run extra false).runOn { solver := some solver }
    logAll c (after.journal.lines s.verbose)
    let found ← require RunError.message r
    logAll c [tagged (sc.name ++ ": " ++ toString found.length ++ " paths")]
    return found ++ (← paths c s extra rest (after.solver.getD solver))

/-- Writes the text of a test class to a file, or prints it. -/
def deliver (c : Console m) (file text : String) : CommandM m Unit := do
  if file = "" then perform (c.print text)
  else require (fun cause => "failed to write output: " ++ cause) (← perform (c.write file text))

/-- Makes tests of scenario files. -/
def generate (c : Console m) (s : Settings) (files : List String) : CommandM m Unit := do
  let solver ← solver c s
  let extra ← sharedRules c s.rules
  let found ← paths c s extra files solver
  let g : Generator := { options := s.testOptions }
  let batch := (g.prologue s.className).formatBatch found s.workers false
  logAll c batch.lines
  if let some e := batch.error then throw ("failed to generate tests: " ++ e.message)
  let g := batch.generator.epilogue
  deliver c s.output g.output
  logAll c [tagged ("Generated " ++ toString g.count ++ " test cases")]

/-- Runs a part of the command, logs why it failed, and gives its result. -/
def attempt {α : Type} (c : Console m) (label : String) (part : CommandM m α) :
    m (Option α) := do
  match ← part.run with
  | .ok a => return some a
  | .error e =>
    c.log (tagged (label ++ e))
    return none

/-- Runs the command and gives its exit code. -/
def run (c : Console m) (args : List String) : m UInt32 := do
  match Arguments.parse args with
  | .error .help => return 0
  | .error .misused => return 2
  | .ok a =>
    if a.files.isEmpty then return 1
    let some s ← attempt c "Failed to load config: " (settings c a) | return 1
    let some _ ← attempt c "" (generate c s a.files) | return 1
    return 0

end Command

end PathWitness
