import PathWitness.PathState
import PathWitness.Rule

/-!
# Journals

What happened while paths were executed, in the order in which it happened. A
journal is kept always; whether an event is told depends on how much the
reader wants to know. Events across several paths share one journal.

## Main definitions

* `Event`: Something that happened.
* `Event.line?`: How an event is told.
* `Journal.lines`: The lines a reader sees.
-/

namespace PathWitness

/-- Something that happened while paths were executed. -/
inductive Event where
  /-- A reference was resolved to null. -/
  | nullified (ref : RefSymbol)
  /-- A reference was resolved to an object that was there. -/
  | aliased (ref : RefSymbol) (position : Int) (type : String)
  /-- A reference was resolved to a new object. -/
  | expanded (ref : RefSymbol) (position : Int) (type : String)
  /-- A rule fired on a target. -/
  | fired (rule : Rule) (target : Target)
  /-- A null dereference ended a path with an exception. -/
  | excepted (path : PathId) (cause exception : String)
  /-- A path had no way to go on. -/
  | abandoned (path : PathId) (cause : String)
  /-- An entry of a given model does not exist on a path. -/
  | entrySkipped (origin : String) (path : PathId) (cause : String)
  /-- No values satisfy the condition of a path. -/
  | unsatisfiable (path : PathId) (script : String)
  /-- No values were found for a path. -/
  | modelless (path : PathId) (script cause : String)
  /-- All scripts of a scenario were executed. -/
  | produced (scenario : String) (count : Nat)
  /-- A solver told something. -/
  | told (line : String)

/-- Events, the latest first. -/
abbrev Journal := List Event

namespace Event

/-- A reference and where it is. -/
def place (ref : RefSymbol) : String :=
  ref.id ++ " (" ++ ref.origin.text ++ ")"

/-- An event in words. -/
def text : Event → String
  | nullified ref => "[LazyInit] " ++ place ref ++ " resolved to null"
  | aliased ref p type =>
    "[LazyInit] " ++ place ref ++ " aliases Object[" ++ toString p ++ "]:" ++ type
  | expanded ref p type =>
    "[LazyInit] " ++ place ref ++ " expands to Object[" ++ toString p ++ "] (" ++ type ++ ")"
  | fired rule target => "[Rules] " ++ rule.text ++ " fires on " ++ target.text
  | excepted path cause exception =>
    "[Scenario] " ++ path.text ++ ": " ++ cause ++ ", throwing " ++ exception
  | abandoned path cause => "[Scenario] " ++ path.text ++ ": " ++ cause ++ ", path dropped"
  | entrySkipped origin path cause =>
    "[Scenario] Model entry " ++ origin ++ " skipped on " ++ path.text ++ ": " ++ cause
  | unsatisfiable path script =>
    "[Scenario] Path " ++ path.text ++ " (" ++ script ++ ") is unsatisfiable, dropped"
  | modelless path script cause =>
    "[Scenario] Warning: no model for " ++ path.text ++ " (" ++ script ++ "): " ++ cause
  | produced scenario count =>
    "[Scenario] Scenario " ++ Text.quoted scenario ++ " produced " ++ toString count ++ " paths"
  | told line => line

/-- The event is told even to readers who want to know little. -/
def isWarning : Event → Bool
  | modelless _ _ _ | told _ => true
  | _ => false

/-- How an event is told. -/
def line? (verbose : Bool) (e : Event) : Option String :=
  if verbose || e.isWarning then some e.text else none

end Event

/-- The lines a reader sees, in the order of the events. -/
def Journal.lines (j : Journal) (verbose : Bool) : List String :=
  j.reverse.filterMap (Event.line? verbose)

end PathWitness
