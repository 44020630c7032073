import PathWitness.Fault
import PathWitness.Number.Numeral
import PathWitness.PathState

/-!
# Reading Values by Origin

The value at an origin is found by walking from the variable that is its root
through the heap, where references lead to what the path has resolved them to.
An element of an array that the path was given, and not created itself, gets a
symbol of its own when it is first read; that is the only way in which reading
changes a state.

## Main definitions

* `PathState.deref`: What a reference points to on a path.
* `PathState.fill`: Creates the symbol of an array element.
* `PathM`: Computations on a state, which keep their changes when they fail.
* `PathState.lookup`: The value at an origin.
-/

namespace PathWitness

/-- Why a value cannot be read. -/
inductive LookupError where
  /-- The state cannot be read. -/
  | access (error : AccessError)
  /-- The heap does not lead to a value. -/
  | heap (error : HeapError)
  /-- An element cannot have a symbol. -/
  | symbol (error : SymbolError)
  /-- The type of an array has no members. -/
  | descriptor (error : DescriptorError)
  /-- Neither a variable nor a symbol is meant. -/
  | noRoot (origin : Origin)

/-- The wording of a lookup error. -/
def LookupError.message : LookupError → String
  | access e => e.message
  | heap e => e.message
  | symbol e => e.message
  | descriptor e => e.message
  | noRoot o => "origin root not found: " ++ o.text

/-- The kind of a lookup error. -/
def LookupError.kind : LookupError → ErrorKind
  | access e => e.kind
  | heap e => e.kind
  | symbol e => e.kind
  | descriptor _ => .error
  | noRoot _ => .noRoot

instance : Fault LookupError := ⟨LookupError.kind, LookupError.message⟩

/-- Computations on the state of a path. What was changed before a failure
    stays changed. -/
abbrev PathM (ε : Type) := ExceptT ε (StateM PathState)

/-- Runs a computation on a state. -/
def PathM.runOn {ε α : Type} (m : PathM ε α) (s : PathState) : Except ε α × PathState :=
  StateT.run (ExceptT.run m) s

/-- A result that does not touch the state. -/
def PathM.ofExcept {ε ε' α : Type} (inject : ε → ε') (r : Except ε α) : PathM ε' α :=
  match r with
  | .ok a => pure a
  | .error e => throw (inject e)

namespace PathState

/-- What a reference points to on a path. -/
def deref (s : PathState) : Reference → Except HeapError Target
  | .resolved t => .ok t
  | .symbolic ref =>
    match s.condition.resolution? ref.number with
    | some (_, how) => .ok how.target
    | none => .error (.unresolved ref)

/-- The text of an index that can be an element of an array: a decimal integer
    that is not negative and fits 32 bits. -/
def isElementIndex (text : String) : Bool :=
  match Number.parseDecimal32 text.toList with
  | some i => 0 ≤ i
  | none => false

/-- An element that is created when it is first read: one of an array that has
    an origin, on an active path. -/
def canFill (s : PathState) (o : HeapObject) : Accessor → Bool
  | .index i => o.isArray && !o.origin.isEmpty && isElementIndex i && s.status == .active
  | _ => false

end PathState

/-- Creates the symbol of an array element that is not there yet. -/
def PathState.fill (p : Int) (o : HeapObject) (a : Accessor) :
    PathM LookupError (Option Value) := do
  let s ← get
  if !s.canFill o a then throw (.heap (.slot .missing a p o.type))
  let type ← PathM.ofExcept .descriptor (Descriptor.member o.type)
  let (x, symbols) ← PathM.ofExcept .symbol (symbolOf s.symbols type (o.origin.push a))
  let v := some (Value.ofSymbol x)
  let heap ← PathM.ofExcept .heap (s.heap.write p a v)
  set { s with symbols := symbols, heap := heap }
  return v

/-- The value at the end of a chain of steps, the first of which has the given
    number. -/
def PathState.walkFrom : Nat → Option Value → List Accessor → PathM LookupError (Option Value)
  | _, v, [] => pure v
  | i, v, a :: rest => do
    let s ← get
    let (p, o) ← PathM.ofExcept .heap (s.heap.follow s.deref i a v)
    match o.get a with
    | .ok v => walkFrom (i + 1) v rest
    | .error _ => walkFrom (i + 1) (← fill p o a) rest

/-- The value at an origin. An origin without a variable as its root can still
    be that of a symbol. -/
def PathState.lookup (o : Origin) : PathM LookupError (Option Value) := do
  let s ← get
  PathM.ofExcept .access s.checkReadable
  match s.binding? o.root with
  | some v => walkFrom 0 (some (.ofSymbol v.value)) o.steps
  | none =>
    match s.symbols.find? o with
    | some x => return some (.ofSymbol x)
    | none => throw (.noRoot o)

end PathWitness
