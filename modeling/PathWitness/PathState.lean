import PathWitness.Fault
import PathWitness.Heap
import PathWitness.PathCondition
import PathWitness.SymbolTable

/-!
# Path States

The state of one path through a method: what it has assumed, its heap, its
symbols, the variables of the method, and how the path has ended if it has.

A state is active until the path ends, then frozen, and unreadable once it is
released. Only an active state changes. A copy of a readable state is active,
so that a path can be continued from any point of another.

## Main definitions

* `PathState`: The state of a path.
* `PathState.enter`: The state at the entry of a method.
* `PathState.checkActive`, `PathState.checkReadable`: What a state allows.
* `PathState.copy`: A copy to continue from.
* `PathState.returnValue`, `PathState.throwException`: The two ways to end.
-/

namespace PathWitness

/-- What can still be done with a state. -/
inductive Status where
  /-- The path goes on. -/
  | active
  /-- The path has ended; its state can be read. -/
  | frozen
  /-- The state cannot be read any more. -/
  | released
  deriving Repr, DecidableEq, Inhabited

namespace Status

/-- The word for a status. -/
def name : Status → String
  | active => "active"
  | frozen => "frozen"
  | released => "released"

/-- The word for the status with a number, or the number itself. -/
def nameOfNumber (n : Int) : String :=
  match n with
  | 0 => active.name
  | 1 => frozen.name
  | 2 => released.name
  | n => "Status(" ++ toString n ++ ")"

end Status

/-- A variable of the method. -/
structure Variable where
  /-- The slot of the variable; a wide value takes two. -/
  slot : Nat
  /-- The name of the variable. -/
  name : String
  /-- The descriptor of the variable's type. -/
  type : String
  /-- The symbol the variable holds. -/
  value : Symbol
  deriving Repr, DecidableEq

/-- Which path a state belongs to: its branch and a number along it. -/
structure PathId where
  /-- The branch; every point of branching adds a number to it. -/
  branch : String := ".1"
  /-- The number along the branch. -/
  sequence : Int := 0
  deriving Repr, DecidableEq, Inhabited

/-- An identifier as it is shown. -/
def PathId.text (i : PathId) : String :=
  i.branch ++ "[" ++ toString i.sequence ++ "]"

/-- The state of a path. -/
structure PathState where
  /-- The method the path goes through. -/
  signature : Signature
  /-- The method has no receiver. -/
  isStatic : Bool
  /-- The variables of the method, by ascending slot. -/
  frame : List Variable := []
  /-- What the path has assumed. -/
  condition : PathCondition := {}
  /-- The objects of the path. -/
  heap : Heap := {}
  /-- The symbols of the path. -/
  symbols : SymbolTable := {}
  /-- The value the path has returned. -/
  returned : Option Value := none
  /-- The exception the path has thrown. -/
  thrown : Option Target := none
  /-- Which path this is. -/
  id : PathId := {}
  /-- The keys of the rules that have fired, the latest first. -/
  fired : List String := []
  /-- What can still be done with the state. -/
  status : Status := .active

/-- The name of the receiver. -/
def receiverName : String := "this"

/-- The state does not allow what was asked for. -/
inductive AccessError where
  /-- The path has ended. -/
  | frozen (id : PathId)
  /-- The state was released. -/
  | unreadable (id : PathId)
  deriving Repr, DecidableEq

/-- The wording of an access error. -/
def AccessError.message : AccessError → String
  | frozen i => "state is frozen: " ++ i.text
  | unreadable i => "state is not readable: " ++ i.text

/-- The kind of an access error. -/
def AccessError.kind : AccessError → ErrorKind
  | frozen _ => .frozen
  | unreadable _ => .unreadable

instance : Fault AccessError := ⟨AccessError.kind, AccessError.message⟩

/-- Why a method cannot be entered. -/
inductive EntryError where
  /-- The method descriptor is malformed. -/
  | descriptor (error : DescriptorError)
  /-- The receiver cannot have a symbol. -/
  | receiver (error : SymbolError)
  /-- Two variables have the same name. -/
  | duplicate (name : String)
  /-- A parameter cannot have a symbol. -/
  | parameter (name : String) (error : SymbolError)
  /-- An octet stands for a parameter. -/
  | octet (name : String) (value : Nat)
  deriving Repr, DecidableEq

/-- The wording of an entry error. -/
def EntryError.message : EntryError → String
  | descriptor e => e.message
  | receiver e => e.message
  | duplicate n => "duplicate parameter name " ++ Text.quoted n
  | parameter n e => "parameter " ++ n ++ ": " ++ e.message
  | octet n v =>
    "parameter " ++ n ++ ": operand type mismatch: reference symbol of type " ++
      Text.quotedPieces [.octet v]

/-- The kind of an entry error. -/
def EntryError.kind : EntryError → ErrorKind
  | descriptor _ | duplicate _ => .error
  | receiver e | parameter _ e => e.kind
  | octet _ _ => .typeMismatch

instance : Fault EntryError := ⟨EntryError.kind, EntryError.message⟩

/-- A path that cannot end with this exception. -/
inductive ThrowError where
  | access (error : AccessError)
  /-- Values of the type are not exceptions. -/
  | notThrowable (type : String)
  deriving Repr, DecidableEq

/-- The wording of a throw error. -/
def ThrowError.message : ThrowError → String
  | access e => e.message
  | notThrowable t => Text.quoted t ++ " cannot be thrown"

/-- The kind of a throw error. -/
def ThrowError.kind : ThrowError → ErrorKind
  | access e => e.kind
  | notThrowable _ => .error

instance : Fault ThrowError := ⟨ThrowError.kind, ThrowError.message⟩

namespace PathState

/-- The variable with a name. -/
def binding? (s : PathState) (name : String) : Option Variable :=
  s.frame.find? (·.name == name)

/-- The declared parameters: all variables but the receiver. -/
def parameters (s : PathState) : List Variable :=
  s.frame.filter (·.name != receiverName)

/-- The first slot after the variables of the frame. -/
def nextSlot (s : PathState) : Nat :=
  match s.frame.getLast? with
  | some v => v.slot + (if Descriptor.isWide v.type then 2 else 1)
  | none => 0

/-- The symbol at an origin, created if there is none: primitive for a
    primitive type and a reference for any other. -/
def symbolOf (t : SymbolTable) (type : String) (o : Origin) :
    Except SymbolError (Symbol × SymbolTable) :=
  if Descriptor.isPrimitive type then (t.primitive type o).map fun (s, t) => (.prim s, t)
  else (t.reference type o).map fun (s, t) => (.ref s, t)

/-- Adds a variable in the next slot. -/
def push (s : PathState) (name type : String) (x : Symbol) (symbols : SymbolTable) : PathState :=
  { s with frame := s.frame ++ [⟨s.nextSlot, name, type, x⟩], symbols := symbols }

/-- Adds a variable that holds the symbol rooted at its name. -/
def bind (s : PathState) (name type : String) : Except SymbolError PathState := do
  let (x, symbols) ← symbolOf s.symbols type (.ofRoot name)
  return s.push name type x symbols

/-- Adds the receiver, which is always a reference. -/
def bindReceiver (s : PathState) : Except SymbolError PathState := do
  let type := Descriptor.ofClass s.signature.className
  let (x, symbols) ← s.symbols.reference type (.ofRoot receiverName)
  return s.push receiverName type (.ref x) symbols

/-- The name of the parameter with an index: the one given for it, or a name
    made of the index. -/
def parameterName (names : List String) (i : Nat) : String :=
  match names[i]? with
  | some n => if n = "" then "arg" ++ toString i else n
  | none => "arg" ++ toString i

/-- Adds the variable of a parameter. An octet that no brackets precede cannot
    be the type of one. -/
def bindParameter (s : PathState) (name : String) (p : Parameter) : Except EntryError PathState :=
  match p with
  | .octet 0 v => .error (.octet name v)
  | p => (s.bind name p.text).mapError (.parameter name)

/-- Adds the variables of parameters, the first of which has the given
    index. -/
def bindParameters (names : List String) :
    Nat → List Parameter → PathState → Except EntryError PathState
  | _, [], s => .ok s
  | i, p :: rest, s =>
    let name := parameterName names i
    if (s.binding? name).isSome then .error (.duplicate name)
    else
      match s.bindParameter name p with
      | .error e => .error e
      | .ok s => bindParameters names (i + 1) rest s

/-- The state at the entry of a method: the receiver and every parameter hold
    the symbols rooted at their names. -/
def enter (signature : Signature) (isStatic : Bool) (names : List String) :
    Except EntryError PathState := do
  let parameters ← (Descriptor.parameters signature.descriptor).mapError .descriptor
  let _ ← (Descriptor.result signature.descriptor).mapError .descriptor
  let s : PathState := { signature := signature, isStatic := isStatic }
  let s ← if isStatic then pure s
    else s.bindReceiver.mapError .receiver
  bindParameters names 0 parameters s

/-- Fails unless the state may change. -/
def checkActive (s : PathState) : Except AccessError Unit :=
  match s.status with
  | .active => .ok ()
  | .frozen => .error (.frozen s.id)
  | .released => .error (.unreadable s.id)

/-- Fails unless the state may be read. -/
def checkReadable (s : PathState) : Except AccessError Unit :=
  match s.status with
  | .released => .error (.unreadable s.id)
  | _ => .ok ()

/-- The state with the path ended. -/
def freeze (s : PathState) : PathState :=
  match s.status with
  | .active => { s with status := .frozen }
  | _ => s

/-- The state made unreadable. -/
def release (s : PathState) : PathState :=
  { s with status := .released }

/-- A copy to continue from, which is always active. -/
def copy (s : PathState) : Except AccessError PathState := do
  s.checkReadable
  return { s with status := .active }

/-- The state of the path with another identifier. -/
def withId (s : PathState) (branch : String) (sequence : Int) : PathState :=
  { s with id := ⟨branch, sequence⟩ }

/-- Ends the path with a value, or with none. -/
def returnValue (s : PathState) (v : Option Value) : Except AccessError PathState := do
  s.checkActive
  return { s with returned := v }.freeze

/-- Ends the path with a new exception of a class. -/
def throwException (s : PathState) (type : String) : Except ThrowError (Target × PathState) := do
  s.checkActive.mapError .access
  if Descriptor.isArray type || Descriptor.isPrimitive type then .error (.notThrowable type)
  let (p, heap) := s.heap.allocate ⟨Descriptor.className type, {}, none, []⟩
  let target := Target.ofPosition p
  return (target, { s with heap := heap, thrown := some target }.freeze)

/-- The rule with a key has fired on the path. -/
def hasFired (s : PathState) (key : String) : Bool :=
  s.fired.contains key

/-- Records that the rule with a key has fired. -/
def markFired (s : PathState) (key : String) : Except AccessError PathState := do
  s.checkActive
  return { s with fired := key :: s.fired }

end PathState

end PathWitness
