import PathWitness.Const
import PathWitness.Fault
import PathWitness.Number.Numeral
import PathWitness.Text.Blank

/-!
# Literals

Constants read from text by the type they are wanted in. White space around a
literal and the suffix letters of its type are ignored, and an integer wraps
to the width of the type.

## Main definitions

* `LiteralError`: Why a text is not a literal of a type.
* `Const.ofLiteral`: Reads a constant of a type.
-/

namespace PathWitness

/-- Why a text is not a literal of a type. -/
inductive LiteralError where
  | notBoolean (text : String)
  | notFloating (text : String)
  | notIntegral (text : String)
  /-- The type has no literals. -/
  | notPrimitive (descriptor : String)
  deriving Repr, DecidableEq

/-- The wording of a literal error. -/
def LiteralError.message : LiteralError → String
  | notBoolean s => "invalid boolean " ++ Text.quoted s
  | notFloating s => "invalid floating value " ++ Text.quoted s
  | notIntegral s => "invalid integral value " ++ Text.quoted s
  | notPrimitive d => "operand type mismatch: literal of type " ++ Text.quoted d

/-- The kind of a literal error. -/
def LiteralError.kind : LiteralError → ErrorKind
  | notPrimitive _ => .typeMismatch
  | _ => .error

instance : Fault LiteralError := ⟨LiteralError.kind, LiteralError.message⟩

/-- The truth value a word stands for. -/
def truthOfWord? : String → Option Bool
  | "1" | "t" | "T" | "TRUE" | "true" | "True" => some true
  | "0" | "f" | "F" | "FALSE" | "false" | "False" => some false
  | _ => none

/-- Reads a constant of a primitive type. -/
def Const.ofLiteralOf (p : Prim) (literal : String) : Except LiteralError Const :=
  let text := Text.trim literal
  if p = .boolean then
    match truthOfWord? text with
    | some b => .ok (.boolean b)
    | none => .error (.notBoolean text)
  else if p.isFloating then
    match Number.parseFloating (Text.trimEndOf ['f', 'F', 'd', 'D'] text.toList) with
    | .ok x => .ok (.ofFloat p x)
    | .error _ => .error (.notFloating text)
  else
    match Number.parseInteger (Text.trimEndOf ['l', 'L'] text.toList) with
    | .ok n => .ok (.ofInt64 p n)
    | .error _ => .error (.notIntegral text)

/-- Reads a constant of the type a descriptor names. -/
def Const.ofLiteral (descriptor literal : String) : Except LiteralError Const :=
  match Prim.ofDescriptor? descriptor with
  | some p => Const.ofLiteralOf p literal
  | none => .error (.notPrimitive descriptor)

end PathWitness
