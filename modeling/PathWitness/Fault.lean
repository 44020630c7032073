/-!
# Faults

Every part of the library has errors of its own, which say exactly what went
wrong. What they have in common is a wording and a kind. The kind is what a
caller decides by: whether a path ended in a null dereference, whether
conditions have no model, and so on. An error that wraps another one is of the
kind of the error it wraps.

## Main definitions

* `ErrorKind`: The kinds of errors.
* `Fault`: Errors, with their wording and their kind.
-/

namespace PathWitness

/-- The kinds of errors. -/
inductive ErrorKind where
  /-- The method of a rule failed for a reason of its own. -/
  | triggerFailed
  /-- A value is missing, or not one the operation knows. -/
  | unsupportedValue
  /-- Types do not fit. -/
  | typeMismatch
  /-- A model has no value for a symbol. -/
  | missingValue
  /-- An integer is divided by zero. -/
  | divisionByZero
  /-- Nothing is known about a named function. -/
  | notEvaluable
  /-- A reference or a position is resolved already. -/
  | alreadyResolved
  /-- An alias of something that was never expanded. -/
  | danglingAlias
  /-- A condition is not boolean. -/
  | notBoolean
  /-- An array and the condition on its length do not go together. -/
  | arrayLength
  /-- There is no object at a position. -/
  | noObject
  /-- An object does not have a slot. -/
  | noSlot
  /-- A step is applied to null. -/
  | nullDereference
  /-- A reference is not resolved yet. -/
  | unresolved
  /-- A path has ended. -/
  | frozen
  /-- A state cannot be read any more. -/
  | unreadable
  /-- The root of an origin is not known. -/
  | noRoot
  /-- A reference cannot be resolved in any way. -/
  | contradiction
  /-- A reference cannot be resolved in this way. -/
  | incompatible
  /-- A rule has fired before. -/
  | alreadyFired
  /-- Conditions have no model. -/
  | unsat
  /-- No answer was found. -/
  | unknown
  /-- The work was called off. -/
  | canceled
  /-- A YAML document does not have the shape that was asked for. -/
  | yaml
  /-- A JSON document does not have the shape that was asked for. -/
  | json
  /-- Any other error. -/
  | error
  deriving Repr, DecidableEq, Inhabited

namespace ErrorKind

/-- The name of a kind. -/
def name : ErrorKind → String
  | triggerFailed => "TriggerFailed"
  | unsupportedValue => "UnsupportedValue"
  | typeMismatch => "TypeMismatch"
  | missingValue => "MissingValue"
  | divisionByZero => "DivisionByZero"
  | notEvaluable => "NotEvaluable"
  | alreadyResolved => "AlreadyResolved"
  | danglingAlias => "DanglingAlias"
  | notBoolean => "NotBoolean"
  | arrayLength => "ArrayLength"
  | noObject => "NoObject"
  | noSlot => "NoSlot"
  | nullDereference => "NullDereference"
  | unresolved => "Unresolved"
  | frozen => "Frozen"
  | unreadable => "Unreadable"
  | noRoot => "NoRoot"
  | contradiction => "Contradiction"
  | incompatible => "Incompatible"
  | alreadyFired => "AlreadyFired"
  | unsat => "Unsat"
  | unknown => "Unknown"
  | canceled => "Canceled"
  | yaml => "Yaml"
  | json => "Json"
  | error => "Error"

end ErrorKind

/-- Errors, with their wording and their kind. -/
class Fault (ε : Type) where
  /-- The kind of an error. -/
  kind : ε → ErrorKind
  /-- The wording of an error. -/
  message : ε → String

instance : Fault Empty := ⟨Empty.elim, Empty.elim⟩

/-- An error of which only the wording and the kind are kept. -/
structure Failure where
  /-- The kind of the error. -/
  kind : ErrorKind
  /-- The wording of the error. -/
  message : String
  deriving Repr, DecidableEq

instance : Fault Failure := ⟨Failure.kind, Failure.message⟩

end PathWitness
