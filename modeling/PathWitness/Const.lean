import PathWitness.Fault
import PathWitness.Number.Shortest
import PathWitness.Primitive
import PathWitness.Text.Quoted

/-!
# Constants

Concrete values of the primitive types. Each type has a constructor whose
payload can hold exactly the values of that type, so a constant is never out
of range.

Arithmetic is done at full width and narrowed afterwards: an integral constant
widens to 64 bits without loss, and `Const.ofInt64` wraps a 64-bit result to
the width of a type. Conversions follow the JVM: a floating value goes to an
integer type by truncation toward zero, saturates at the limits of `int` or
`long`, and is then wrapped to narrower types.

## Main definitions

* `Const`: A constant of a primitive type.
* `Const.toInt64`, `Const.toFloat`: A constant as a wide number.
* `Const.ofInt64`, `Const.ofFloat`: The constant of a type nearest a number.
* `Const.convert`: Conversion to another primitive type.
* `Const.literal`, `Const.text`: The source text of a constant.

## Theorems

* `type_ofInt64`, `type_ofFloat`, `type_convert`: Conversions yield the type
  they were asked for.
-/

namespace PathWitness

/-- A constant of a primitive type. -/
inductive Const where
  | boolean (value : Bool)
  | byte (value : Int8)
  | char (value : UInt16)
  | short (value : Int16)
  | int (value : Int32)
  | long (value : Int64)
  | float (value : Float32)
  | double (value : Float)
  deriving Repr, DecidableEq

namespace Const

/-- The type of a constant. -/
def type : Const → Prim
  | boolean _ => .boolean
  | byte _ => .byte
  | char _ => .char
  | short _ => .short
  | int _ => .int
  | long _ => .long
  | float _ => .float
  | double _ => .double

/-- The constant has a floating-point type. -/
def isFloating (c : Const) : Bool :=
  c.type.isFloating

/-- A floating value truncated toward zero, within the limits of `long`. -/
def saturateLong (x : Float) : Int64 :=
  Int64.ofInt (Number.saturate Number.leastInt64 Number.greatestInt64 x)

/-- A floating value truncated toward zero, within the limits of `int`. -/
def saturateInt (x : Float) : Int64 :=
  Int64.ofInt (Number.saturate Number.leastInt32 Number.greatestInt32 x)

/-- The constant as a 64-bit integer. A floating value is truncated toward
    zero and saturates; a value that is not a number gives 0. -/
def toInt64 : Const → Int64
  | boolean b => if b then 1 else 0
  | byte v => v.toInt64
  | char v => Int64.ofNat v.toNat
  | short v => v.toInt64
  | int v => v.toInt64
  | long v => v
  | float v => saturateLong (Number.widen v)
  | double v => saturateLong v

/-- The constant as a 64-bit floating-point number. -/
def toFloat : Const → Float
  | float v => Number.widen v
  | double v => v
  | c => Number.ofInt c.toInt64.toInt

/-- The constant of a type that a 64-bit integer is wrapped or rounded to. -/
def ofInt64 (p : Prim) (v : Int64) : Const :=
  match p with
  | .boolean => boolean (v != 0)
  | .byte => byte v.toInt8
  | .char => char v.toUInt64.toUInt16
  | .short => short v.toInt16
  | .int => int v.toInt32
  | .long => long v
  | .float => float (Number.narrow (Number.ofInt v.toInt))
  | .double => double (Number.ofInt v.toInt)

/-- The constant of a type that a floating value is converted to. -/
def ofFloat (p : Prim) (x : Float) : Const :=
  match p with
  | .boolean => boolean (x != 0)
  | .long => long (saturateLong x)
  | .float => float (Number.narrow x)
  | .double => double x
  | p => ofInt64 p (saturateInt x)

/-- Conversion to another primitive type. -/
def convert (dest : Prim) (c : Const) : Const :=
  if c.type = dest then c
  else if c.isFloating then ofFloat dest c.toFloat
  else ofInt64 dest c.toInt64

/-- The constant counts as true: it is not zero. -/
def toBool : Const → Bool
  | float v => !(Number.widen v == 0)
  | double v => !(v == 0)
  | c => c.toInt64 != 0

/-- The constant equals one. -/
def isOne : Const → Bool
  | float v => Number.widen v == 1
  | double v => v == 1
  | c => c.toInt64 == 1

/-- The zero of a type. -/
def zero (p : Prim) : Const :=
  ofInt64 p 0

/-- The literal of a floating-point value: its shortest decimal and a suffix,
    or the named constant of the boxed type. -/
def floatingLiteral (l : Number.Layout) (r : Number.Reading) (suffix box : String) : String :=
  match r with
  | .nan => box ++ ".NaN"
  | .infinite false => box ++ ".POSITIVE_INFINITY"
  | .infinite true => box ++ ".NEGATIVE_INFINITY"
  | .finite negative m e => String.ofList (Number.finiteText l negative m e) ++ suffix

/-- A 64-bit integer in decimal. -/
def integerText (v : Int64) : String :=
  toString v.toInt

/-- The constant as a numeric literal of source text; a boolean is written 0
    or 1. -/
def literal : Const → String
  | long v => integerText v ++ "L"
  | float v => floatingLiteral Number.binary32 (Number.readFloat32 v) "f" "Float"
  | double v => floatingLiteral Number.binary64 (Number.readFloat v) "d" "Double"
  | c => integerText c.toInt64

/-- The constant as an expression of source text. -/
def text : Const → String
  | boolean true => "true"
  | boolean false => "false"
  | c => c.literal

@[simp]
theorem type_ofInt64 (p : Prim) (v : Int64) : (ofInt64 p v).type = p := by
  cases p <;> rfl

@[simp]
theorem type_ofFloat (p : Prim) (x : Float) : (ofFloat p x).type = p := by
  cases p <;> rfl

/-- A conversion yields a constant of the type asked for. -/
@[simp]
theorem type_convert (p : Prim) (c : Const) : (convert p c).type = p := by
  unfold convert
  split
  · assumption
  · split <;> simp

end Const

/-- What can be wrong with the type asked for by name when a constant is
    made. -/
inductive ConstError where
  /-- An integral type was expected. -/
  | notIntegral (descriptor : String)
  /-- A floating-point type was expected. -/
  | notFloating (descriptor : String)
  /-- A primitive type was expected. -/
  | notConvertible (descriptor : String)
  deriving Repr, DecidableEq

/-- The wording of a constant error. -/
def ConstError.message : ConstError → String
  | notIntegral d => "operand type mismatch: " ++ Text.quoted d ++ " is not an integral type"
  | notFloating d => "operand type mismatch: " ++ Text.quoted d ++ " is not a floating type"
  | notConvertible d => "operand type mismatch: convert to " ++ Text.quoted d

instance : Fault ConstError := ⟨fun _ => .typeMismatch, ConstError.message⟩

namespace Const

/-- The constant of an integral type. -/
def integralOf (p : Prim) (v : Int64) : Except ConstError Const :=
  if p.isIntegral then .ok (ofInt64 p v) else .error (.notIntegral p.descriptor)

/-- The constant of a floating-point type. -/
def floatingOf (p : Prim) (x : Float) : Except ConstError Const :=
  if p.isFloating then .ok (ofFloat p x) else .error (.notFloating p.descriptor)

/-- The integral constant of the type a descriptor names. -/
def integral (d : String) (v : Int64) : Except ConstError Const :=
  match Prim.ofDescriptor? d with
  | some p => integralOf p v
  | none => .error (.notIntegral d)

/-- The floating constant of the type a descriptor names. -/
def floating (d : String) (x : Float) : Except ConstError Const :=
  match Prim.ofDescriptor? d with
  | some p => floatingOf p x
  | none => .error (.notFloating d)

/-- Conversion to the type a descriptor names. -/
def convertTo (d : String) (c : Const) : Except ConstError Const :=
  match Prim.ofDescriptor? d with
  | some p => .ok (c.convert p)
  | none => .error (.notConvertible d)

end Const

end PathWitness
