import PathWitness.ClassTable
import PathWitness.Rule

/-!
# Scenarios

A scenario describes a method, the classes and rules around it, and scripts
that each lead a path through the method. A step of a script does one thing:
it resolves a reference, assumes a condition, or ends the path. The methods
that rules run are described by steps too.

Steps are kept as they were written down. What a step does is decided by the
first of its actions; a scenario that was checked has steps with exactly one.

## Main definitions

* `Step`: A step as it is written down.
* `Action`: What a step does.
* `Step.action`: What a written step does.
* `Scenario`: A method with its scripts.
* `Scenario.check`: Refuses scenarios with ill-formed steps.
-/

namespace PathWitness

/-- A step of a script, as it is written down. A text that is empty is
    absent. -/
structure Step where
  /-- The origin of a reference to resolve. -/
  resolve : String := ""
  /-- How the reference is resolved. -/
  manner : String := ""
  /-- The class the reference is expanded to. -/
  className : String := ""
  /-- The origin of what the reference is an alias of. -/
  target : String := ""
  /-- The origins that are not null. -/
  notNull : List String := []
  /-- A condition to assume. -/
  assume : String := ""
  /-- An expression to return. -/
  result : String := ""
  /-- The class of an exception to throw. -/
  exception : String := ""
  deriving Repr, DecidableEq, Inhabited

/-- How a reference is resolved. -/
inductive Manner where
  /-- It is null. -/
  | null
  /-- It is a new object of a class. -/
  | expand (className : String)
  /-- It is the object at an origin. -/
  | aliasOf (target : String)
  /-- It is everything it can be, except null at some origins. -/
  | any (notNull : List String)
  /-- A word that says nothing. -/
  | unknown (word : String)
  deriving Repr, DecidableEq

/-- What a step does. -/
inductive Action where
  /-- Resolves the reference at an origin. -/
  | resolve (origin : String) (how : Manner)
  /-- Assumes a condition. -/
  | assume (condition : String)
  /-- Ends the path with the value of an expression, or with none. -/
  | giveBack (expression : Option String)
  /-- Ends the path with an exception. -/
  | raise (className : String)
  /-- Does nothing. -/
  | idle
  deriving Repr, DecidableEq

namespace Step

/-- The result of a path that returns nothing. -/
def voidResult : String := "void"

/-- How a step resolves its reference. -/
def how (s : Step) : Manner :=
  match s.manner with
  | "null" => .null
  | "expand" => .expand s.className
  | "alias" => .aliasOf s.target
  | "any" => .any s.notNull
  | word => .unknown word

/-- What a step does: the first action that is there. -/
def action (s : Step) : Action :=
  if s.resolve != "" then .resolve s.resolve s.how
  else if s.assume != "" then .assume s.assume
  else if s.result != "" then .giveBack (if s.result == voidResult then none else some s.result)
  else if s.exception != "" then .raise s.exception
  else .idle

/-- The names of the actions that are there. -/
def actionNames (s : Step) : List String :=
  let named := [("resolve", s.resolve), ("assume", s.assume), ("return", s.result),
    ("throw", s.exception)]
  (named.filter (·.2 != "")).map (·.1)

/-- What kind of step this is, in words. -/
def kindText (s : Step) : String :=
  String.intercalate "+" s.actionNames

end Step

/-- A script that leads a path through the method. -/
structure Script where
  /-- The name of the script. -/
  name : String := ""
  /-- The steps. -/
  steps : List Step := []
  /-- Literals for origins, if values are given and not searched for. -/
  model : Option (List (String × String)) := none
  deriving Repr, DecidableEq, Inhabited

/-- A method with the scripts that lead through it. -/
structure Scenario where
  /-- The name of the scenario. -/
  name : String := ""
  /-- The method. -/
  method : Signature := {}
  /-- The method has no receiver. -/
  isStatic : Bool := false
  /-- The names of the parameters. -/
  parameters : List String := []
  /-- The classes references can be expanded to. -/
  classes : List ClassDecl := []
  /-- The rules. -/
  rules : List RuleSpec := []
  /-- The bodies of the methods that rules run, by name. -/
  triggers : List (String × List Step) := []
  /-- The scripts. -/
  scripts : List Script := []
  deriving Repr, DecidableEq, Inhabited

/-- What is wrong with a step. -/
inductive StepFault where
  /-- An alias names no target. -/
  | noTarget
  /-- There is no such way to resolve a reference. -/
  | unknownManner (word : String)
  /-- The step does nothing, or more than one thing. -/
  | actions (kind : String)
  deriving Repr, DecidableEq

/-- The wording of a step fault. -/
def StepFault.message : StepFault → String
  | noTarget => "alias needs a target"
  | unknownManner w => "unknown resolution " ++ Text.quoted w
  | actions k =>
    "exactly one of resolve/assume/return/throw expected, got " ++ Text.quoted k

/-- Checks a step. -/
def Step.check (s : Step) : Except StepFault Unit :=
  match s.actionNames with
  | [name] =>
    if name != "resolve" then .ok ()
    else
      match s.how with
      | .aliasOf target => if target == "" then .error .noTarget else .ok ()
      | .unknown word => .error (.unknownManner word)
      | _ => .ok ()
  | _ => .error (.actions s.kindText)

/-- Where a step is. -/
inductive StepPlace where
  /-- In the script with an index and a name. -/
  | script (index : Nat) (name : String)
  /-- In the body of a method. -/
  | trigger (name : String)
  deriving Repr, DecidableEq

/-- A place in words. -/
def StepPlace.text : StepPlace → String
  | script i name => "path " ++ toString i ++ " (" ++ name ++ ")"
  | trigger name => "trigger " ++ name

/-- What is wrong with a scenario. -/
inductive ScenarioError where
  /-- The method has no class or no name. -/
  | noMethod (scenario : String)
  /-- The descriptor of the method is malformed. -/
  | descriptor (scenario : String) (error : DescriptorError)
  /-- A step is ill-formed. -/
  | step (place : StepPlace) (index : Nat) (fault : StepFault)
  deriving Repr, DecidableEq

/-- The wording of a scenario error. -/
def ScenarioError.message : ScenarioError → String
  | noMethod n => "scenario " ++ Text.quoted n ++ ": method class and name are required"
  | descriptor n e => "scenario " ++ Text.quoted n ++ ": " ++ e.message
  | step place i f => place.text ++ " step " ++ toString i ++ ": " ++ f.message

instance : Fault ScenarioError := ⟨fun _ => .error, ScenarioError.message⟩

/-- Checks the steps at a place, the first of which has the given index. -/
def StepPlace.check (place : StepPlace) : Nat → List Step → Except ScenarioError Unit
  | _, [] => .ok ()
  | i, s :: rest =>
    match s.check with
    | .ok () => place.check (i + 1) rest
    | .error f => .error (.step place i f)

namespace Scenario

/-- The steps of a scenario with their places: those of scripts first. -/
def places (s : Scenario) : List (StepPlace × List Step) :=
  s.scripts.mapIdx (fun i script => (.script i script.name, script.steps)) ++
    s.triggers.map fun (name, steps) => (.trigger name, steps)

/-- Checks the method and the steps of a scenario. -/
def check (s : Scenario) : Except ScenarioError Unit := do
  if s.method.className = "" || s.method.name = "" then .error (.noMethod s.name)
  let _ ← (Descriptor.parameters s.method.descriptor).mapError (.descriptor s.name)
  s.places.forM fun (place, steps) => place.check 0 steps

end Scenario

end PathWitness
