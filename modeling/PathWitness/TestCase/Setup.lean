import PathWitness.Model
import PathWitness.Number.Numeral
import PathWitness.PathState
import PathWitness.TestCase.Java

/-!
# From Assumptions to Statements

The statements that bring about what a path has assumed. They follow the
clauses of the path condition in order: a reference that was resolved gets its
object, its alias or null, and a symbol that a condition mentions gets its
value from the model. An array is created with the length that the model gives
to the symbol in the condition right after it.

What is reached from a root becomes a local variable of its own. What is
nested is stored into the variable of its root, which must be there by then.
Roots of things that were there before the path began are passed over.

## Main definitions

* `CaseError`: Why a path has no test.
* `Setup`: The statements so far, with the variables they declare.
* `Setup.Context`: What the statements depend on.
* `Setup.declarePrimitive`, `Setup.setReference`: Gives a symbol its value.
* `Setup.readOrigin`: The expression for what is at an origin.
* `Setup.walk`: The statements for a list of clauses.
-/

namespace PathWitness

namespace TestCase

/-- Why a test is passed over. -/
inductive SkipReason where
  /-- The model has no value where one is needed. -/
  | noSolution
  /-- Nothing in the test holds the object at an origin. -/
  | noVariable (origin : Origin)
  deriving Repr, DecidableEq

/-- A reason as it is told. -/
def SkipReason.text : SkipReason → String
  | noSolution => "no numeric solution from the solver"
  | noVariable o => "no variable for " ++ o.path

/-- Why a path has no test. -/
inductive CaseError where
  /-- The test is passed over. -/
  | skip (reason : SkipReason)
  /-- A state cannot be read. -/
  | access (error : AccessError)
  /-- The thrown exception is not on the heap. -/
  | exceptionObject (error : HeapError)
  /-- The descriptor of the method is malformed. -/
  | descriptor (error : DescriptorError)
  /-- A value should be returned and there is none. -/
  | noReturnValue (id : PathId) (signature : Signature)
  /-- No condition on the length follows an array. -/
  | arrayWithoutLength (clause : Clause)
  /-- Something else follows an array. -/
  | arrayFollowedBy (clause next : Clause)
  /-- The condition on a length is not about one symbol. -/
  | lengthSymbols (condition : Term) (count : Nat)
  /-- An alias of an object that was created for no reference. -/
  | danglingAlias (clause : Clause)
  /-- The root of an origin has no variable to store into. -/
  | noRootVariable (origin : Origin)
  /-- The step cannot be written. -/
  | unwritableStep (accessor : Accessor)
  /-- The index is neither a number nor a symbol. -/
  | badIndex (text : String)
  /-- The returned object is not on the heap. -/
  | returnedObject (position : Int)
  /-- The returned value cannot be evaluated. -/
  | evaluation (error : EvalError MissingValue)

/-- The wording of a case error. -/
def CaseError.message : CaseError → String
  | skip r => r.text
  | access e => e.message
  | exceptionObject e => "exception object: " ++ e.message
  | descriptor e => e.message
  | noReturnValue id sig =>
    "unsupported value kind: state " ++ id.text ++ " is stuck without a return value for " ++
      sig.text
  | arrayWithoutLength c =>
    "malformed array length constraint: " ++ c.text ++ " is the last clause"
  | arrayFollowedBy c next =>
    "malformed array length constraint: " ++ c.text ++ " is followed by " ++ next.text
  | lengthSymbols c n =>
    "malformed array length constraint: " ++ c.text ++ " constrains " ++ toString n ++ " symbols"
  | danglingAlias c => "alias to a position that was never expanded: " ++ c.text
  | noRootVariable o =>
    "unresolved symbolic reference: root of " ++ o.text ++ " has no variable"
  | unwritableStep a => "unsupported value kind: " ++ a.text ++ " cannot be written"
  | badIndex s => "unsupported value kind: index " ++ Text.quoted s
  | returnedObject p => "no object at heap position: returned Object[" ++ toString p ++ "]"
  | evaluation e => e.message

/-- The kind of a case error. -/
def CaseError.kind : CaseError → ErrorKind
  | skip _ | descriptor _ => .error
  | access e => e.kind
  | exceptionObject e => e.kind
  | noReturnValue _ _ | unwritableStep _ | badIndex _ => .unsupportedValue
  | arrayWithoutLength _ | arrayFollowedBy _ _ | lengthSymbols _ _ => .arrayLength
  | danglingAlias _ => .danglingAlias
  | noRootVariable _ => .unresolved
  | returnedObject _ => .noObject
  | evaluation e => e.kind

instance : Fault CaseError := ⟨CaseError.kind, CaseError.message⟩

/-- The statements so far, with the variables they declare. -/
structure Setup where
  /-- The statements, in order. -/
  statements : List Statement := []
  /-- The variables of symbols, by identifier of the symbol. -/
  bindings : List (String × String) := []
  /-- The roots that have a variable. -/
  roots : List String := []

namespace Setup

/-- What the statements depend on. -/
structure Context where
  /-- The roots of what was there before the path began. -/
  initialRoots : List String
  /-- The values of symbols. -/
  model : Model
  /-- The assumptions of the path. -/
  condition : PathCondition
  /-- The symbols of the path. -/
  symbols : SymbolTable

/-- Computations that add statements. All is dropped on failure. -/
abbrev SetupM := StateT Setup (Except CaseError)

/-- The variable of a root. -/
def rootVariable (root : String) : String :=
  "__" ++ identifierText root

/-- The variable of a nested primitive symbol. -/
def symbolVariable (x : PrimSymbol) : String :=
  "V" ++ toString x.number

/-- The variable of the symbol with an identifier. -/
def nameOf? (s : Setup) (id : String) : Option String :=
  s.bindings.lookup id

/-- Adds a statement. -/
def emit (st : Statement) : SetupM Unit :=
  modify fun s => { s with statements := s.statements ++ [st] }

/-- Records the variable of a symbol. -/
def bind (id name : String) : SetupM Unit :=
  modify fun s => { s with bindings := (id, name) :: s.bindings }

/-- Records that a root has a variable. -/
def declareRoot (root : String) : SetupM Unit :=
  modify fun s => { s with roots := root :: s.roots }

/-- The origin starts at something that was there before the path began. -/
def Context.isInitial (ctx : Context) (o : Origin) : Bool :=
  ctx.initialRoots.contains o.root

/-- The chain has steps, and all of them are indices. -/
def isIndexChain (o : Origin) : Bool :=
  !o.isRoot && o.steps.all fun | .index _ => true | _ => false

/-- The symbol an index names, if it is the identifier of one. -/
def Context.indexSymbol? (ctx : Context) (text : String) : Option PrimSymbol :=
  ctx.symbols.symbols.findSome? fun
    | .prim x => if x.id == text then some x else none
    | .ref _ => none

/-- The number that an index stands for: its own text, or the value of the
    symbol it names. -/
def Context.index (ctx : Context) (text : String) : Except CaseError Int :=
  match Number.parseDecimal32 text.toList with
  | some i => .ok i
  | none =>
    match ctx.indexSymbol? text with
    | none => .error (.badIndex text)
    | some x =>
      match ctx.model.get? x.number with
      | some v => .ok v.toInt64.toInt
      | none => .error (.skip .noSolution)

/-- The indices of a chain that has no other steps. -/
def Context.indices (ctx : Context) (steps : List Accessor) : Except CaseError (List Int) :=
  steps.mapM fun a => ctx.index a.name

/-- The steps of a chain for the reflective functions. -/
def Context.chain (ctx : Context) (steps : List Accessor) : Except CaseError (List ChainStep) :=
  steps.mapM fun
    | .field name => .ok (.field name)
    | .index i => return .index (← ctx.index i)
    | .length => .error (.unwritableStep .length)

/-- Stores a value at a nested origin. -/
def assign (ctx : Context) (o : Origin) (v : Source) : SetupM Unit := do
  if !(← get).roots.contains o.root then throw (.noRootVariable o)
  if isIndexChain o then emit (.storeElement (rootVariable o.root) (← ctx.indices o.steps) v)
  else emit (.storeChain (rootVariable o.root) (← ctx.chain o.steps) v)

/-- Declares a variable for a primitive symbol, and stores it where the symbol
    is. A length is stored by creating the array. -/
def declarePrimitive (ctx : Context) (x : PrimSymbol) (v : Const) : SetupM Unit := do
  let o := x.origin
  let name := if o.isRoot then rootVariable o.root else symbolVariable x
  emit (.declare x.type.descriptor name (.literal x.type v))
  bind x.id name
  if o.isRoot then declareRoot o.root
  else if o.last? != some .length then assign ctx o (.var name)

/-- Puts a value where a reference is. -/
def setReference (ctx : Context) (ref : RefSymbol) (v : Source) : SetupM Unit := do
  let o := ref.origin
  if o.isRoot then
    emit (.declare ref.type (rootVariable o.root) v)
    declareRoot o.root
    bind ref.id (rootVariable o.root)
  else assign ctx o v

/-- The expression for the object at an origin, as a value of a type. -/
def readOrigin (ctx : Context) (o : Origin) (type : String) : SetupM Source := do
  if !(← get).roots.contains o.root then throw (.skip (.noVariable o))
  if o.isRoot then return .var (rootVariable o.root)
  else if isIndexChain o then return .element (rootVariable o.root) (← ctx.indices o.steps)
  else return .chain type (rootVariable o.root) (← ctx.chain o.steps)

/-- Declares a variable for a symbol that has none, with its value from the
    model. -/
def bindSymbol (ctx : Context) (x : PrimSymbol) : SetupM Unit := do
  if ((← get).nameOf? x.id).isSome then return
  match ctx.model.get? x.number with
  | some v => declarePrimitive ctx x v
  | none => throw (.skip .noSolution)

/-- Declares variables for the symbols of a condition, unless one of them was
    there before the path began. -/
def bindCondition (ctx : Context) (c : Term) : SetupM Unit := do
  if c.symbols.any fun x => ctx.isInitial x.origin then return
  c.symbols.forM (bindSymbol ctx)

/-- Declares variables for those symbols of the returned value that the model
    has values for. -/
def bindReturned (ctx : Context) (t : Term) : SetupM Unit :=
  t.symbols.forM fun x => do
    if ((← get).nameOf? x.id).isSome || ctx.isInitial x.origin then return
    match ctx.model.get? x.number with
    | some v => declarePrimitive ctx x v
    | none => return

/-- Creates the array that a reference was expanded to. -/
def expandArray (ctx : Context) (ref : RefSymbol) (type : String) (length : Term) :
    SetupM Unit := do
  match length.symbols with
  | [x] =>
    bindSymbol ctx x
    setReference ctx ref (.newArray type (((← get).nameOf? x.id).getD ""))
  | xs => throw (.lengthSymbols length xs.length)

/-- Lets a reference point to the object that another one was expanded to. -/
def makeAlias (ctx : Context) (ref : RefSymbol) (position : Int) : SetupM Unit := do
  match ctx.condition.expansion? position with
  | none => throw (.danglingAlias (.resolve ref (.aliasOf position)))
  | some (target, _) =>
    let v ← readOrigin ctx target.origin ref.type
    setReference ctx ref <|
      match v with
      | .chain .. => v
      | v => if target.type = ref.type then v else .cast ref.type v

/-- The statements for a list of clauses. -/
def walk (ctx : Context) : List Clause → SetupM Unit
  | [] => pure ()
  | .initialized _ :: rest => walk ctx rest
  | .assume c :: rest => do
    bindCondition ctx c
    walk ctx rest
  | .resolve ref (.fresh p type) :: rest =>
    if Descriptor.isArray type then
      match rest with
      | [] => throw (.arrayWithoutLength (.resolve ref (.fresh p type)))
      | .assume length :: rest => do
        if !ctx.isInitial ref.origin then expandArray ctx ref type length
        walk ctx rest
      | next :: _ => throw (.arrayFollowedBy (.resolve ref (.fresh p type)) next)
    else do
      if !ctx.isInitial ref.origin then setReference ctx ref (.newObject type)
      walk ctx rest
  | .resolve ref .null :: rest => do
    if !ctx.isInitial ref.origin then setReference ctx ref .null
    walk ctx rest
  | .resolve ref (.aliasOf p) :: rest => do
    if !ctx.isInitial ref.origin then makeAlias ctx ref p
    walk ctx rest

end Setup

end TestCase

end PathWitness
