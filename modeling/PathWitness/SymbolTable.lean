import PathWitness.Fault
import PathWitness.Term

/-!
# Symbol Tables

The symbols of a path. A symbol is created when its origin is first asked for
and found again afterwards, so an origin has one symbol. The number of a
symbol is its position in the table.

## Main definitions

* `SymbolTable`: The symbols of a path, in the order of creation.
* `SymbolTable.find?`: The symbol at an origin.
* `SymbolTable.primitive`, `SymbolTable.reference`: The symbol at an origin,
  created if there is none.
-/

namespace PathWitness

/-- The symbols of a path, in the order of creation. -/
structure SymbolTable where
  /-- The symbols; the number of each is its position. -/
  symbols : List Symbol := []
  deriving Repr, DecidableEq, Inhabited

/-- Why a symbol cannot be had. -/
inductive SymbolError where
  /-- A primitive symbol of a type that is not primitive. -/
  | notPrimitive (descriptor : String)
  /-- A reference symbol of a type that is not a reference type. -/
  | notReference (descriptor : String)
  /-- A primitive symbol that is reached from nowhere. -/
  | primitiveWithoutOrigin
  /-- A reference symbol that is reached from nowhere. -/
  | referenceWithoutOrigin
  /-- The origin has a symbol of another type. -/
  | occupied (origin : Origin) (holder : Symbol)
  deriving Repr, DecidableEq

/-- The wording of a symbol error. -/
def SymbolError.message : SymbolError → String
  | notPrimitive d => "operand type mismatch: primitive symbol of type " ++ Text.quoted d
  | notReference d => "operand type mismatch: reference symbol of type " ++ Text.quoted d
  | primitiveWithoutOrigin => "primitive symbol needs an origin"
  | referenceWithoutOrigin => "reference symbol needs an origin"
  | occupied o s =>
    "operand type mismatch: " ++ o.text ++ " already holds " ++ s.id ++ " of type " ++ s.type

/-- The kind of a symbol error. -/
def SymbolError.kind : SymbolError → ErrorKind
  | primitiveWithoutOrigin | referenceWithoutOrigin => .error
  | _ => .typeMismatch

instance : Fault SymbolError := ⟨SymbolError.kind, SymbolError.message⟩

namespace SymbolTable

/-- The symbol whose origin reads like the given one. -/
def find? (t : SymbolTable) (o : Origin) : Option Symbol :=
  let key := o.text
  t.symbols.find? (·.origin.text == key)

/-- The number of symbols. -/
def size (t : SymbolTable) : Nat :=
  t.symbols.length

/-- The table with one more symbol. -/
def push (t : SymbolTable) (s : Symbol) : SymbolTable :=
  ⟨t.symbols ++ [s]⟩

/-- The primitive symbol at an origin, created if there is none. -/
def primitive (t : SymbolTable) (descriptor : String) (o : Origin) :
    Except SymbolError (PrimSymbol × SymbolTable) :=
  match Prim.ofDescriptor? descriptor with
  | none => .error (.notPrimitive descriptor)
  | some p =>
    if o.isEmpty then .error .primitiveWithoutOrigin
    else
      match t.find? o with
      | some (.prim s) => if s.type = p then .ok (s, t) else .error (.occupied o (.prim s))
      | some s => .error (.occupied o s)
      | none =>
        let s : PrimSymbol := ⟨t.size, p, o⟩
        .ok (s, t.push (.prim s))

/-- The reference symbol at an origin, created if there is none. A symbol that
    is there keeps its static type. -/
def reference (t : SymbolTable) (descriptor : String) (o : Origin) :
    Except SymbolError (RefSymbol × SymbolTable) :=
  if !Descriptor.isReferenceOrArray descriptor then .error (.notReference descriptor)
  else if o.isEmpty then .error .referenceWithoutOrigin
  else
    match t.find? o with
    | some (.ref s) => .ok (s, t)
    | some s => .error (.occupied o s)
    | none =>
      let s : RefSymbol := ⟨t.size, descriptor, o⟩
      .ok (s, t.push (.ref s))

/-- The symbol of either kind at an origin, created if there is none. -/
def symbol (t : SymbolTable) (descriptor : String) (o : Origin) :
    Except SymbolError (Symbol × SymbolTable) :=
  if Descriptor.isReferenceOrArray descriptor then
    (t.reference descriptor o).map fun (s, t) => (.ref s, t)
  else
    (t.primitive descriptor o).map fun (s, t) => (.prim s, t)

end SymbolTable

end PathWitness
