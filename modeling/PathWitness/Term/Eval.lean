import PathWitness.Fault
import PathWitness.Term

/-!
# Evaluation

The value of a term, given the values of its symbols. Both operands of every
operator are evaluated, the left one first, and the first failure ends the
evaluation.

An operator computes at the type its application has by the term, not at the
types of the values that its operands turn out to have. The two agree on terms
that were built with checked operands; on any other term an operator can meet a
type it is not defined on, which is a failure of its own.

## Main definitions

* `EvalError`: Why a term has no value.
* `Term.eval`: The value of a term.
* `evalOf`: The value of a term that may be missing.
-/

namespace PathWitness

/-- Why a term has no value. The source of symbol values has failures of its
    own kind. -/
inductive EvalError (ε : Type) where
  /-- A symbol has no value. -/
  | lookup (cause : ε)
  /-- An integer is divided by zero. -/
  | divisionByZero (term : Term)
  /-- Nothing is known about a named function. -/
  | notEvaluable (term : Term)
  /-- A division by zero was carried out. -/
  | trap
  /-- The types of an operation do not fit. -/
  | mismatch (error : OperationMismatch)
  /-- There is no term. -/
  | absentTerm

/-- The wording of an evaluation error. -/
def EvalError.message {ε : Type} [Fault ε] : EvalError ε → String
  | lookup e => Fault.message e
  | divisionByZero t => "integer division by zero: " ++ t.text
  | notEvaluable t => "value cannot be evaluated: " ++ t.text
  | trap => "runtime error: integer divide by zero"
  | mismatch e => e.message
  | absentTerm => "unsupported value kind: nil primitive"

/-- The kind of an evaluation error. -/
def EvalError.kind {ε : Type} [Fault ε] : EvalError ε → ErrorKind
  | lookup e => Fault.kind e
  | divisionByZero _ => .divisionByZero
  | notEvaluable _ => .notEvaluable
  | trap => .error
  | mismatch _ => .typeMismatch
  | absentTerm => .unsupportedValue

instance {ε : Type} [Fault ε] : Fault (EvalError ε) := ⟨EvalError.kind, EvalError.message⟩

/-- The failure of the operation at the top of a term. -/
def EvalError.ofOperation {ε : Type} (t : Term) : OperationError → EvalError ε
  | .divisionByZero => divisionByZero t
  | .trap => trap
  | .mismatch e => mismatch e

/-- The value of a term, where `lookup` gives the values of its symbols. A
    symbol's value is converted to the symbol's type. -/
def Term.eval {ε : Type} (lookup : PrimSymbol → Except ε Const) :
    Term → Except (EvalError ε) Const
  | .const c => .ok c
  | .symbol s =>
    match lookup s with
    | .ok c => .ok (c.convert s.type)
    | .error e => .error (.lookup e)
  | .unary op arg => do
    let c ← arg.eval lookup
    (op.apply (op.resultType arg.type) c).mapError (.ofOperation (.unary op arg))
  | .binary op left right => do
    let a ← left.eval lookup
    let b ← right.eval lookup
    (op.apply (op.resultType left.type right.type) a b).mapError
      (.ofOperation (.binary op left right))
  | .convert _ dest arg => do
    return (← arg.eval lookup).convert dest
  | .apply type name args => .error (.notEvaluable (.apply type name args))

/-- The value of a term that may be missing. -/
def evalOf {ε : Type} (lookup : PrimSymbol → Except ε Const) :
    Option Term → Except (EvalError ε) Const
  | some t => t.eval lookup
  | none => .error .absentTerm

end PathWitness
