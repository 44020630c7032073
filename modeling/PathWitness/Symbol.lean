import PathWitness.Descriptor
import PathWitness.Origin

/-!
# Symbols and References

A symbol stands for a value that is not known yet: a primitive one, which a
model gives a constant, or a reference, which a path resolves to null or to an
object. Symbols are numbered in the order of their creation, and the number
together with the kind is the symbol's identity within a path.

## Main definitions

* `PrimSymbol`, `RefSymbol`, `Symbol`: Symbols.
* `Target`: What a reference is resolved to.
* `Reference`: A symbolic or a resolved reference.
-/

namespace PathWitness

/-- A symbol of a primitive type. -/
structure PrimSymbol where
  /-- The position in the order of creation. -/
  number : Nat
  /-- The type of the value. -/
  type : Prim
  /-- How the value is reached. -/
  origin : Origin
  deriving Repr, DecidableEq

/-- A symbol of a reference type. -/
structure RefSymbol where
  /-- The position in the order of creation. -/
  number : Nat
  /-- The descriptor of the static type. -/
  type : String
  /-- How the reference is reached. -/
  origin : Origin
  deriving Repr, DecidableEq

/-- The identifier of a primitive symbol with the given number. -/
def PrimSymbol.idOf (number : Nat) : String :=
  "\x7bV" ++ toString number ++ "\x7d"

/-- The identifier of a primitive symbol. -/
def PrimSymbol.id (s : PrimSymbol) : String :=
  idOf s.number

/-- The identifier of a reference symbol. -/
def RefSymbol.id (s : RefSymbol) : String :=
  "\x7bR" ++ toString s.number ++ "\x7d"

/-- A symbol of either kind. -/
inductive Symbol where
  | prim (symbol : PrimSymbol)
  | ref (symbol : RefSymbol)
  deriving Repr, DecidableEq

namespace Symbol

/-- The position of a symbol in the order of creation. -/
def number : Symbol → Nat
  | prim s => s.number
  | ref s => s.number

/-- The identifier of a symbol. -/
def id : Symbol → String
  | prim s => s.id
  | ref s => s.id

/-- The descriptor of a symbol's type. -/
def type : Symbol → String
  | prim s => s.type.descriptor
  | ref s => s.type

/-- How the value of a symbol is reached. -/
def origin : Symbol → Origin
  | prim s => s.origin
  | ref s => s.origin

/-- A symbol as it is listed, with its type and its origin. -/
def text (s : Symbol) : String :=
  s.id ++ " " ++ s.type ++ " " ++ s.origin.text

end Symbol

/-- What a reference is resolved to. Positions of a heap start at 1, but any
    integer may be asked for. -/
inductive Target where
  | null
  | object (position : Int)
  deriving Repr, DecidableEq

namespace Target

/-- The position that stands for null. -/
def nullPosition : Int := -1

/-- The target at a position. -/
def ofPosition (p : Int) : Target :=
  if p = nullPosition then null else object p

/-- The position of a target. -/
def position : Target → Int
  | null => nullPosition
  | object p => p

/-- A target as it is shown. -/
def text : Target → String
  | null => "null"
  | object p => "Object[" ++ toString p ++ "]"

end Target

/-- A reference: still symbolic, or resolved. -/
inductive Reference where
  | symbolic (symbol : RefSymbol)
  | resolved (target : Target)
  deriving Repr, DecidableEq

/-- A reference as it is shown. -/
def Reference.text : Reference → String
  | symbolic s => s.id
  | resolved t => t.text

/-- The descriptor of a reference's type. A resolved reference keeps no type
    of its own. -/
def Reference.type : Reference → String
  | symbolic s => s.type
  | resolved _ => Descriptor.object

end PathWitness
