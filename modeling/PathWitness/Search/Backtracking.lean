import PathWitness.Model
import PathWitness.Search.Seed
import PathWitness.Term.Symbols

/-!
# Backtracking Search for Models

Symbols are assigned one after another in the order in which the conditions
first mention them, each with its seed values in turn. A condition is checked
as soon as its last symbol has a value, and the search goes back when it does
not hold.

Conditions without symbols are decided beforehand: one that does not hold
makes the others irrelevant. When all seeds have been tried in vain there may
still be a model among other values, so that is no proof that there is none.

## Main definitions

* `SearchError`: Why no model is returned.
* `Interruption`: A search that is called off while it runs.
* `Level`: A symbol, its values, and the conditions it completes.
* `Search.assign`: The search below a level.
* `Search.plan`: The levels for a list of conditions.
* `Search.solve`: A model of a list of conditions.
-/

namespace PathWitness

/-- Why a search is called off. -/
inductive InterruptionCause where
  /-- Its answer is not wanted any more. -/
  | canceled
  /-- It took too long. -/
  | timeout
  deriving Repr, DecidableEq

/-- The wording of a cause. -/
def InterruptionCause.message : InterruptionCause → String
  | canceled => "context canceled"
  | timeout => "context deadline exceeded"

/-- A search is called off while it runs. It notices now and then. -/
structure Interruption where
  /-- How many steps were taken by then. -/
  step : Nat := 0
  /-- Why. -/
  cause : InterruptionCause := .canceled
  deriving Repr, DecidableEq

/-- A search that was called off before it began, or is not at all. -/
def Interruption.atStart (canceled : Bool) : Option Interruption :=
  if canceled then some {} else none

/-- Why no model is returned. -/
inductive SearchError where
  /-- A condition is missing or not boolean. -/
  | notBoolean (index : Nat) (condition : Option Term)
  /-- A condition without symbols does not hold. -/
  | unsatisfiable (condition : Term)
  /-- A condition applies a function nothing is known about. -/
  | notEvaluable (error : EvalError MissingValue)
  /-- A condition cannot be evaluated. -/
  | evaluation (error : EvalError MissingValue)
  /-- No seeds can be taken. -/
  | seeds (error : Seed.NegativeLimit)
  /-- All seeds were tried in vain. -/
  | noModel (symbols : Nat)
  /-- Too many values were tried. -/
  | budget (steps : Int)
  /-- The search was called off. -/
  | interrupted (cause : InterruptionCause)

/-- The wording of a search error. -/
def SearchError.message : SearchError → String
  | notBoolean i c =>
    "condition " ++ toString i ++ " is not boolean: " ++
      (match c with | some c => c.text | none => "<nil>")
  | unsatisfiable c => "unsatisfiable: " ++ c.text
  | notEvaluable e => "solver gave no answer: " ++ e.message
  | evaluation e => e.message
  | seeds e => e.message
  | noModel n =>
    "solver gave no answer: no model among seed values for " ++ toString n ++ " symbols"
  | budget n => "solver gave no answer: step budget " ++ toString n ++ " exhausted"
  | interrupted c => "solver gave no answer: " ++ c.message

/-- The kind of a search error. -/
def SearchError.kind : SearchError → ErrorKind
  | notBoolean _ _ | seeds _ => .error
  | unsatisfiable _ => .unsat
  | evaluation e => e.kind
  | notEvaluable _ | noModel _ | budget _ | interrupted _ => .unknown

instance : Fault SearchError := ⟨SearchError.kind, SearchError.message⟩

/-- What bounds a search. -/
structure SearchLimits where
  /-- How many values are tried for a symbol. -/
  maxCandidates : Int
  /-- How many values are tried in all. -/
  maxSteps : Int
  /-- When the search is called off, if it is. -/
  interruption : Option Interruption := none
  deriving Repr, DecidableEq

/-- A symbol with the values to try, and the conditions that can be checked
    once it and the symbols before it have values. -/
structure Level where
  /-- The symbol. -/
  symbol : PrimSymbol
  /-- The values to try. -/
  values : List Const
  /-- The conditions that the symbol completes. -/
  checks : List Term

/-- The end of a search below some level. -/
inductive Outcome where
  /-- A model was found. -/
  | found (model : Model)
  /-- All values were tried in vain; so many steps have been taken by then. -/
  | exhausted (steps : Nat)
  /-- The search was broken off. -/
  | failed (error : SearchError)

namespace Search

/-- Whether a condition holds under a model. A division by zero counts as
    false. -/
def holds (m : Model) (c : Term) : Except SearchError Bool :=
  match m.eval c with
  | .ok v => .ok v.toBool
  | .error (.divisionByZero _) => .ok false
  | .error (.notEvaluable f) => .error (.notEvaluable (.notEvaluable f))
  | .error e => .error (.evaluation e)

/-- Whether all conditions hold under a model, up to the first that does
    not. -/
def allHold (m : Model) : List Term → Except SearchError Bool
  | [] => .ok true
  | c :: rest => do
    if ← holds m c then allHold m rest else return false

/-- How many steps are taken between two looks at whether the search was
    called off. -/
def interruptionPeriod : Nat := 1024

/-- What a search finds out when it looks at a step whether it was called
    off. -/
def interruptionAt? (limits : SearchLimits) (step : Nat) : Option SearchError :=
  if step % interruptionPeriod = 0 then
    (limits.interruption.filter (·.step ≤ step)).map (.interrupted ·.cause)
  else none

/-- A step that may not be taken. -/
def stepFault? (limits : SearchLimits) (step : Nat) : Option SearchError :=
  if limits.maxSteps < step then some (.budget limits.maxSteps) else interruptionAt? limits step

/-- Tries values for a symbol, where `next` searches below. -/
def tryValues (limits : SearchLimits) (x : PrimSymbol) (checks : List Term)
    (next : Model → Nat → Outcome) (m : Model) : List Const → Nat → Outcome
  | [], steps => .exhausted steps
  | v :: rest, steps =>
    let step := steps + 1
    match stepFault? limits step with
    | some e => .failed e
    | none =>
      let extended := m.set x v
      match allHold extended checks with
      | .error e => .failed e
      | .ok false => tryValues limits x checks next m rest step
      | .ok true =>
        match next extended step with
        | .exhausted steps => tryValues limits x checks next m rest steps
        | outcome => outcome

/-- The search below the levels that have values already. -/
def assign (limits : SearchLimits) : List Level → Model → Nat → Outcome
  | [], m, _ => .found m
  | l :: rest, m, steps => tryValues limits l.symbol l.checks (assign limits rest) m l.values steps

/-- A condition with its symbols. -/
structure Question where
  /-- The condition. -/
  condition : Term
  /-- Its symbols, in the order of first occurrence. -/
  symbols : List PrimSymbol

/-- The conditions with their symbols, the first of which has the given
    index. -/
def questions : Nat → List (Option Term) → Except SearchError (List Question)
  | _, [] => .ok []
  | i, none :: _ => .error (.notBoolean i none)
  | i, some c :: rest =>
    if c.type = .boolean then do return ⟨c, c.symbols⟩ :: (← questions (i + 1) rest)
    else .error (.notBoolean i (some c))

/-- The place of a symbol in the order of assignment. -/
def place (order : List PrimSymbol) (x : PrimSymbol) : Nat :=
  order.findIdx (·.number == x.number)

/-- The place of the last symbol of a condition; there is none if it has no
    symbols. -/
def lastPlace? (order : List PrimSymbol) (q : Question) : Option Nat :=
  (q.symbols.map (place order)).max?

/-- Decides the conditions without symbols. -/
def decideClosed (order : List PrimSymbol) : List Question → Except SearchError Unit
  | [] => .ok ()
  | q :: rest =>
    match lastPlace? order q with
    | some _ => decideClosed order rest
    | none => do
      if ← holds .empty q.condition then decideClosed order rest
      else .error (.unsatisfiable q.condition)

/-- The symbols of a list of conditions in the order of first occurrence. -/
def order (qs : List Question) : List PrimSymbol :=
  firstOccurrences (qs.flatMap (·.symbols))

/-- The conditions that the symbol at a place completes. -/
def completedAt (order : List PrimSymbol) (qs : List Question) (i : Nat) : List Term :=
  (qs.filter fun q => lastPlace? order q == some i).map (·.condition)

/-- The levels for symbols, the first of which has the given place. -/
def levels (limits : SearchLimits) (order : List PrimSymbol) (qs : List Question) :
    Nat → List PrimSymbol → Except SearchError (List Level)
  | _, [] => .ok []
  | i, x :: rest =>
    match Seed.values x.type (qs.flatMap (·.condition.constants)) limits.maxCandidates with
    | .error e => .error (.seeds e)
    | .ok values => do
      return ⟨x, values, completedAt order qs i⟩ :: (← levels limits order qs (i + 1) rest)

/-- The levels for a list of conditions, of which those without symbols
    hold. -/
def plan (limits : SearchLimits) (conditions : List (Option Term)) :
    Except SearchError (List Level) := do
  let qs ← questions 0 conditions
  let symbols := order qs
  decideClosed symbols qs
  levels limits symbols qs 0 symbols

/-- A model of a list of conditions. -/
def solve (limits : SearchLimits) (conditions : List (Option Term)) :
    Except SearchError Model := do
  let levels ← plan limits conditions
  match assign limits levels .empty 0 with
  | .found m => return m
  | .exhausted _ => .error (.noModel levels.length)
  | .failed e => .error e

end Search

end PathWitness
