import PathWitness.TestCase.Setup
import PathWitness.Term.Render

/-!
# The Test of a Path

A path that has ended becomes a test: the statements for what it assumed, the
call, and an assertion on the value it returned or the exception it threw.

A boolean result is computed and compared with. Any other primitive result is
written as an expression over the variables of the test. In both, a symbol
without a variable has the default value of its type. A returned reference is
compared with the object it points to, if the test can reach that.

## Main definitions

* `TestCase.returnAssertion`: The assertion on a returned value.
* `TestCase.invocation`: The call under test.
* `TestCase.ofPath`: The test of a path.
* `TestCase.render`: The text of a test, or what stands in its place.
-/

namespace PathWitness

namespace TestCase

open Setup

/-- The value of a symbol in a test: from the model, or the default of the
    type. -/
def valueOrDefault (m : Model) (x : PrimSymbol) : Except MissingValue Const :=
  .ok ((m.get? x.number).getD (.zero x.type))

/-- The text of a symbol in a test: its variable, or the default of the
    type. -/
def variableOrDefault (s : Setup) (x : PrimSymbol) : Except CaseError String :=
  .ok ((s.nameOf? x.id).getD (defaultText x.type.descriptor))

/-- The assertion on a returned primitive value. -/
def termAssertion (ctx : Context) (t : Term) : SetupM Assertion := do
  if t.type = .boolean then
    match t.eval (valueOrDefault ctx.model) with
    | .ok v => return .truth v.toBool
    | .error (.divisionByZero _) => throw (.skip .noSolution)
    | .error e => throw (.evaluation e)
  else
    match t.render (variableOrDefault (← get)) with
    | .ok text => return .expression text
    | .error e => throw e

/-- The assertion on a returned reference that points to a target. An object
    that the path created itself is only known to be there. -/
def targetAssertion (ctx : Context) (heap : Heap) : Target → SetupM Assertion
  | .null => return .source .null
  | .object p => do
    match ctx.condition.expansion? p with
    | some (ref, _) => return .source (← readOrigin ctx ref.origin ref.type)
    | none => if heap.has p then return .notNull else throw (.returnedObject p)

/-- The assertion on a returned reference. One that was never resolved is null
    or what an untouched field holds. -/
def referenceAssertion (ctx : Context) (heap : Heap) : Reference → SetupM Assertion
  | .resolved t => targetAssertion ctx heap t
  | .symbolic ref => do
    match ctx.condition.resolution? ref.number with
    | some (_, how) => targetAssertion ctx heap how.target
    | none =>
      if !ref.origin.isRoot && (← get).roots.contains ref.origin.root then
        return .source (← readOrigin ctx ref.origin ref.type)
      else return .source .null

/-- The assertion on a returned value. -/
def returnAssertion (ctx : Context) (heap : Heap) : Value → SetupM Assertion
  | .term t => termAssertion ctx t
  | .ref r => referenceAssertion ctx heap r

/-- The call under test. -/
def invocation (initial : PathState) (s : Setup) : Invocation :=
  let sig := initial.signature
  let receiver : Receiver :=
    if sig.name = "<init>" then .constructor
    else if initial.isStatic then .static
    else if s.roots.contains receiverName then .var (rootVariable receiverName)
    else .new
  let argument := fun (v : Variable) =>
    match s.nameOf? v.value.id with
    | some name => Argument.var name
    | none => .default v.type
  ⟨receiver, sig.className, sig.name, initial.parameters.map argument⟩

/-- The class of the exception that a path has thrown. -/
def expectedException (final : PathState) : Except CaseError (Option String) :=
  match final.thrown with
  | none => .ok none
  | some target =>
    match final.heap.get target.position with
    | .ok o => .ok (some o.type)
    | .error e => .error (.exceptionObject e)

/-- What statements depend on, for a path. -/
def contextOf (initialRoots : List String) (final : PathState) (m : Option Model) : Context :=
  ⟨initialRoots, m.getD .empty, final.condition, final.symbols⟩

/-- The value that a test asserts on, given the type the method returns. There
    is none if the path throws, the method returns nothing, or it is a
    constructor. -/
def returnedValue (initial final : PathState) (type : String) : Except CaseError (Option Value) :=
  if final.thrown.isSome || type = "V" || initial.signature.name = "<init>" then .ok none
  else
    match final.returned with
    | some v => .ok (some v)
    | none => .error (.noReturnValue final.id initial.signature)

/-- The test of a path that ended in `final`, entered in `initial`. -/
def ofPath (initialRoots : List String) (number : Nat) (initial final : PathState)
    (m : Option Model) : Except CaseError TestMethod := do
  initial.checkReadable.mapError .access
  final.checkReadable.mapError .access
  let expected ← expectedException final
  let ctx := contextOf initialRoots final m
  let ((), s) ← (walk ctx final.condition.clauses).run {}
  let type ← (Descriptor.result initial.signature.descriptor).mapError .descriptor
  match ← returnedValue initial final type with
  | none => return ⟨number, expected, s.statements, invocation initial s, none⟩
  | some v =>
    let ((), s) ←
      match v with
      | .term t => (bindReturned ctx t).run s
      | .ref _ => pure ((), s)
    let (assertion, _) ← (returnAssertion ctx final.heap v).run s
    return ⟨number, expected, s.statements, invocation initial s, some (type, assertion)⟩

/-- The error of a batch of tests. -/
inductive BatchError where
  /-- There is no state to make a test of. -/
  | missingState (number : Nat)
  /-- A path has no test. -/
  | failed (number : Nat) (id : PathId) (error : CaseError)
  /-- The batch was called off. -/
  | canceled

/-- The wording of a batch error. -/
def BatchError.message : BatchError → String
  | missingState n => "test case " ++ toString n ++ ": missing initial or final state"
  | failed n id e => "test case " ++ toString n ++ " for state " ++ id.text ++ ": " ++ e.message
  | canceled => "context canceled"

/-- The kind of a batch error. -/
def BatchError.kind : BatchError → ErrorKind
  | missingState _ => .error
  | failed _ _ e => e.kind
  | canceled => .canceled

instance : Fault BatchError := ⟨BatchError.kind, BatchError.message⟩

/-- The remark that stands in place of a test. -/
def remark (number : Nat) (id : PathId) (reason : String) : String :=
  indentUnit ++ "//Unable to generate test case " ++ toString number ++ " for state " ++ id.text ++
    " (" ++ reason ++ ")\n"

/-- The text of one test, why there is none, and the lines told on the way. -/
structure Rendering where
  /-- The text of the test, or the remark in its place. -/
  text : String := ""
  /-- Why there is no test. -/
  error : Option BatchError := none
  /-- The lines told on the way. -/
  lines : List String := []

/-- A path that ended, with the state it began in and the values of its
    symbols. -/
structure FinishedPath where
  /-- The state at the entry of the method. -/
  initial : Option PathState
  /-- The state at the end. -/
  final : Option PathState
  /-- The values of symbols, if they are known. -/
  model : Option Model

/-- How tests are written. -/
structure Options where
  /-- The roots of what was there before a path began. -/
  initialRoots : List String := ["pre_init"]
  /-- Tells about tests that are passed over. -/
  verbose : Bool := false
  deriving Repr, DecidableEq, Inhabited

/-- The text of the test of a path. A test that is passed over, or whose state
    cannot be read, leaves a remark. -/
def render (opts : Options) (number : Nat) (p : FinishedPath) : Rendering :=
  match p.initial, p.final with
  | some initial, some final =>
    match ofPath opts.initialRoots number initial final p.model with
    | .ok t => { text := t.text }
    | .error (.skip reason) =>
      { text := remark number final.id reason.text
        lines :=
          if opts.verbose then
            ["[Oracle] Skipping test case " ++ toString number ++ " for state " ++ final.id.text ++
              ": " ++ reason.text]
          else [] }
    | .error (.access (.unreadable _)) =>
      { text := remark number final.id "state is not readable"
        lines := ["[Oracle] Warning: state " ++ final.id.text ++
          " is not readable, discarding test case " ++ toString number] }
    | .error e => { error := some (.failed number final.id e) }
  | _, _ => { error := some (.missingState number) }

end TestCase

end PathWitness
