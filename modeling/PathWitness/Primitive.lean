/-!
# Primitive Types

The eight primitive types of a JVM language, each with its one-letter
descriptor and its source keyword, and the rule by which an arithmetic
operator picks the type of its result.

## Main definitions

* `Prim`: A primitive type.
* `Prim.ofDescriptor?`: The primitive type a descriptor names.
* `Prim.promote`: Binary numeric promotion.
-/

namespace PathWitness

/-- A primitive type. -/
inductive Prim where
  | boolean
  | byte
  | char
  | short
  | int
  | long
  | float
  | double
  deriving Repr, DecidableEq, Inhabited

namespace Prim

/-- The letter that stands for the type in a descriptor. -/
def letter : Prim → Char
  | boolean => 'Z'
  | byte => 'B'
  | char => 'C'
  | short => 'S'
  | int => 'I'
  | long => 'J'
  | float => 'F'
  | double => 'D'

/-- The descriptor of the type. -/
def descriptor (p : Prim) : String :=
  String.ofList [p.letter]

/-- The primitive type with the given letter. -/
def ofLetter? : Char → Option Prim
  | 'Z' => some boolean
  | 'B' => some byte
  | 'C' => some char
  | 'S' => some short
  | 'I' => some int
  | 'J' => some long
  | 'F' => some float
  | 'D' => some double
  | _ => none

/-- The primitive type a descriptor names, if it names one. -/
def ofDescriptor? (d : String) : Option Prim :=
  match d.toList with
  | [c] => ofLetter? c
  | _ => none

/-- The keyword of the type in source text. -/
def keyword : Prim → String
  | boolean => "boolean"
  | byte => "byte"
  | char => "char"
  | short => "short"
  | int => "int"
  | long => "long"
  | float => "float"
  | double => "double"

/-- The type is one of the two floating-point types. -/
def isFloating : Prim → Bool
  | float | double => true
  | _ => false

/-- The type is represented by an integer; booleans count as 0 and 1. -/
def isIntegral (p : Prim) : Bool :=
  !p.isFloating

/-- The type is an integer type on which arithmetic is defined. -/
def isInteger (p : Prim) : Bool :=
  p.isIntegral && p != boolean

/-- A value of the type takes two local-variable slots. -/
def isWide : Prim → Bool
  | long | double => true
  | _ => false

/-- Binary numeric promotion: the widest operand type, and at least `int`. -/
def promote (a b : Prim) : Prim :=
  if a = double ∨ b = double then double
  else if a = float ∨ b = float then float
  else if a = long ∨ b = long then long
  else int

@[simp]
theorem ofLetter?_letter (p : Prim) : ofLetter? p.letter = some p := by
  cases p <;> rfl

/-- A primitive type is read back from its descriptor. -/
@[simp]
theorem ofDescriptor?_descriptor (p : Prim) : ofDescriptor? p.descriptor = some p := by
  simp [ofDescriptor?, descriptor]

end Prim

end PathWitness
