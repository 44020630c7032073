import PathWitness.Fault
import PathWitness.Term

/-!
# The Heap of a Path

Objects and arrays by position. Positions start at 1 and are given out in
order, so the heap is the list of its objects, and no position is ever used
again.

A slot holds what was last written to it, which may be nothing at all; the
slots of an object are kept in the order of their first writing. The length of
an array is not a slot.

## Main definitions

* `HeapObject`: An object or an array.
* `Heap`: The objects of a path.
* `HeapObject.get`, `HeapObject.set`: Reading and writing a slot.
* `Heap.allocate`, `Heap.allocateArray`: One more object.
* `Heap.follow`: The object a step starts at.
* `Heap.walk`: The value at the end of a chain of steps.
-/

namespace PathWitness

/-- An object or an array. -/
structure HeapObject where
  /-- The class of an object, or the descriptor of an array. -/
  type : String
  /-- How the object was first reached; empty if the path created it. -/
  origin : Origin := {}
  /-- The length of an array. -/
  length : Option Term := none
  /-- The slots in the order of their first writing. -/
  slots : List (String × Option Value) := []

/-- Why a slot cannot be read or written. -/
inductive SlotFault where
  /-- There is no such slot. -/
  | missing
  /-- Only an array has elements. -/
  | notArray
  /-- The length of an array is not a slot. -/
  | lengthFixed
  deriving Repr, DecidableEq

/-- The key of the slot an accessor names. -/
def Accessor.slot? : Accessor → Option String
  | field name => some name
  | index i => some ("[" ++ i ++ "]")
  | length => none

/-- Puts a value under a key, in place of the one that is there. -/
def putSlot (key : String) (v : Option Value) :
    List (String × Option Value) → List (String × Option Value)
  | [] => [(key, v)]
  | e :: rest => if e.1 = key then (key, v) :: rest else e :: putSlot key v rest

namespace HeapObject

/-- The object is an array. -/
def isArray (o : HeapObject) : Bool :=
  Descriptor.isArray o.type

/-- What the slot with a key holds, if there is such a slot. -/
def slot? (o : HeapObject) (key : String) : Option (Option Value) :=
  o.slots.lookup key

/-- Reads a field, an element or the length. -/
def get (o : HeapObject) (a : Accessor) : Except SlotFault (Option Value) :=
  match a with
  | .length =>
    match o.isArray, o.length with
    | true, some n => .ok (some (.term n))
    | _, _ => .error .missing
  | .index i =>
    if o.isArray then read ("[" ++ i ++ "]") else .error .notArray
  | .field name => read name
where
  /-- What the slot with a key holds. -/
  read (key : String) : Except SlotFault (Option Value) :=
    match o.slot? key with
    | some v => .ok v
    | none => .error .missing

/-- Writes a field or an element. -/
def set (o : HeapObject) (a : Accessor) (v : Option Value) : Except SlotFault HeapObject :=
  match a with
  | .length => .error .lengthFixed
  | .index i =>
    if o.isArray then .ok { o with slots := putSlot ("[" ++ i ++ "]") v o.slots }
    else .error .notArray
  | .field name => .ok { o with slots := putSlot name v o.slots }

/-- The keys of the slots. -/
def keys (o : HeapObject) : List String :=
  o.slots.map (·.1)

/-- The object at a position, as it is shown. -/
def textAt (o : HeapObject) (position : Int) : String :=
  "Object[" ++ toString position ++ "]:" ++ o.type

end HeapObject

/-- The objects of a path; the first is at position 1. -/
structure Heap where
  /-- The objects by position. -/
  objects : List HeapObject := []

instance : Inhabited Heap := ⟨{}⟩

/-- Why a heap cannot be read or written. -/
inductive HeapError where
  /-- There is no object at a position. -/
  | noObject (position : Int)
  /-- The object at a position does not have the slot. -/
  | slot (fault : SlotFault) (accessor : Accessor) (position : Int) (type : String)
  /-- A step is applied to something that is not a reference. -/
  | notReference (step : Nat) (accessor : Accessor) (found : Option Value)
  /-- A step is applied to null. -/
  | nullDereference (step : Nat) (accessor : Accessor)
  /-- A symbolic reference cannot be followed without its path. -/
  | symbolic (ref : RefSymbol)
  /-- The path has not resolved a reference. -/
  | unresolved (ref : RefSymbol)

/-- The wording of a heap error. -/
def HeapError.message : HeapError → String
  | noObject p => "no object at heap position: " ++ toString p
  | slot .missing a p type =>
    "no such field or element: " ++ a.text ++ " on Object[" ++ toString p ++ "] (" ++ type ++ ")"
  | slot .notArray a p type =>
    "no such field or element: " ++ a.text ++ " on non-array Object[" ++ toString p ++ "] (" ++
      type ++ ")"
  | slot .lengthFixed a _ _ => "no such field or element: " ++ a.text
  | notReference i a v =>
    "no such field or element: step " ++ toString i ++ " (" ++ a.text ++ ") applied to " ++
      (match v with | some v => v.text | none => "<nil>")
  | nullDereference i a => "null dereference: step " ++ toString i ++ " (" ++ a.text ++ ")"
  | symbolic ref => "unresolved symbolic reference: " ++ ref.id
  | unresolved ref =>
    "unresolved symbolic reference: " ++ ref.id ++ " (" ++ ref.origin.text ++ ")"

/-- The kind of a heap error. -/
def HeapError.kind : HeapError → ErrorKind
  | noObject _ => .noObject
  | slot _ _ _ _ | notReference _ _ _ => .noSlot
  | nullDereference _ _ => .nullDereference
  | symbolic _ | unresolved _ => .unresolved

instance : Fault HeapError := ⟨HeapError.kind, HeapError.message⟩

/-- Why an array cannot be allocated. -/
inductive AllocationError where
  /-- The type is not an array type. -/
  | notArray (type : String)
  /-- The length is missing or not an integer. -/
  | badLength (type : String) (length : Option Term)

/-- The wording of an allocation error. -/
def AllocationError.message : AllocationError → String
  | notArray type => Text.quoted type ++ " is not an array type"
  | badLength type n =>
    "array length of " ++ type ++ " must be integral, got " ++
      (match n with | some n => n.text | none => "<nil>")

instance : Fault AllocationError := ⟨fun _ => .error, AllocationError.message⟩

namespace Heap

/-- The number of objects. -/
def size (h : Heap) : Nat :=
  h.objects.length

/-- The index in the list of objects that a position stands for. -/
def indexOf? (p : Int) : Option Nat :=
  if 0 < p then some (p.toNat - 1) else none

/-- The object at a position. -/
def get? (h : Heap) (p : Int) : Option HeapObject :=
  (indexOf? p).bind (h.objects[·]?)

/-- The object at a position, which must be there. -/
def get (h : Heap) (p : Int) : Except HeapError HeapObject :=
  match h.get? p with
  | some o => .ok o
  | none => .error (.noObject p)

/-- There is an object at a position. -/
def has (h : Heap) (p : Int) : Bool :=
  (h.get? p).isSome

/-- The positions in use, ascending. -/
def positions (h : Heap) : List Int :=
  (List.range h.size).map fun (i : Nat) => (i : Int) + 1

/-- The heap with another object in place of the one at a position. -/
def replace (h : Heap) (p : Int) (o : HeapObject) : Heap :=
  match indexOf? p with
  | some i => ⟨h.objects.set i o⟩
  | none => h

/-- The heap with one more object, and the position of that. -/
def allocate (h : Heap) (o : HeapObject) : Int × Heap :=
  ((h.size : Int) + 1, ⟨h.objects ++ [o]⟩)

/-- The length of an array has an integer type. -/
def isLength (t : Term) : Bool :=
  t.type.isInteger

/-- The heap with one more array, and the position of that. -/
def allocateArray (h : Heap) (type : String) (origin : Origin) (length : Option Term) :
    Except AllocationError (Int × Heap) :=
  if !Descriptor.isArray type then .error (.notArray type)
  else
    match length with
    | none => .error (.badLength type none)
    | some n =>
      if isLength n then .ok (h.allocate ⟨type, origin, some n, []⟩)
      else .error (.badLength type (some n))

/-- Reads a slot of the object at a position. -/
def read (h : Heap) (p : Int) (a : Accessor) : Except HeapError (Option Value) := do
  let o ← h.get p
  match o.get a with
  | .ok v => return v
  | .error f => .error (.slot f a p o.type)

/-- Writes a slot of the object at a position. -/
def write (h : Heap) (p : Int) (a : Accessor) (v : Option Value) : Except HeapError Heap := do
  let o ← h.get p
  match o.set a v with
  | .ok o => return h.replace p o
  | .error f => .error (.slot f a p o.type)

/-- The object that a step starts at, with its position: the value in hand
    must be a reference to it. -/
def follow (h : Heap) (deref : Reference → Except HeapError Target) (step : Nat) (a : Accessor)
    (v : Option Value) : Except HeapError (Int × HeapObject) :=
  match v with
  | some (.ref r) => do
    match ← deref r with
    | .null => .error (.nullDereference step a)
    | .object p => return (p, ← h.get p)
  | v => .error (.notReference step a v)

/-- The target of a reference that is resolved by itself. -/
def concreteTarget : Reference → Except HeapError Target
  | .resolved t => .ok t
  | .symbolic s => .error (.symbolic s)

/-- The value at the end of a chain of steps, the first of which has the given
    number. -/
def walkFrom (h : Heap) (deref : Reference → Except HeapError Target) :
    Nat → Option Value → List Accessor → Except HeapError (Option Value)
  | _, v, [] => .ok v
  | i, v, a :: rest => do
    let (p, o) ← h.follow deref i a v
    match o.get a with
    | .ok v => h.walkFrom deref (i + 1) v rest
    | .error f => .error (.slot f a p o.type)

/-- The value at the end of a chain of steps from a value. -/
def walk (h : Heap) (deref : Reference → Except HeapError Target) (root : Option Value)
    (steps : List Accessor) : Except HeapError (Option Value) :=
  h.walkFrom deref 0 root steps

end Heap

end PathWitness
