import PathWitness.Const
import PathWitness.Text.Quoted

/-!
# Operators

The operators an expression over primitive values is built with. They come in
families that share one typing rule and one way of computing: arithmetic,
bitwise and logical connectives, shifts and comparisons, besides the two unary
operators.

Operators compute on constants, and the type of the application decides how: on
truth values, on floating-point numbers or on integers. An integer operation is
carried out in 64 bits and wrapped to the type of the application, which is
exact because every narrower integer type embeds in 64 bits.

Nothing here relies on the operands being of the right types. An operator that
is not defined on the type of its application fails, and so does an integer
division by zero; the divisor is checked before the division is carried out.

## Main definitions

* `UnaryOperator`, `BinaryOperator`, `Operator`: The operators.
* `Operator.ofSymbol?`: Reads an operator.
* `BinaryOperator.resultType?`: The type of a well-typed application.
* `OperationError`: Why an operator has no result.
* `UnaryOperator.apply`, `BinaryOperator.apply`: Operators on constants.
-/

namespace PathWitness

/-- The unary operators. -/
inductive UnaryOperator where
  | neg
  | not
  deriving Repr, DecidableEq

/-- The arithmetic operators. -/
inductive Arithmetic where
  | add
  | sub
  | mul
  | div
  | rem
  deriving Repr, DecidableEq

/-- The connectives: bitwise on integers, logical on booleans. -/
inductive Connective where
  | and
  | or
  | xor
  deriving Repr, DecidableEq

/-- The shifts. -/
inductive Shift where
  | left
  | right
  | unsignedRight
  deriving Repr, DecidableEq

/-- The comparisons. -/
inductive Comparison where
  | eq
  | ne
  | lt
  | le
  | gt
  | ge
  deriving Repr, DecidableEq

/-- The binary operators, by family. -/
inductive BinaryOperator where
  | arithmetic (op : Arithmetic)
  | connective (op : Connective)
  | shift (op : Shift)
  | comparison (op : Comparison)
  deriving Repr, DecidableEq

/-- The operators. -/
inductive Operator where
  | unary (op : UnaryOperator)
  | binary (op : BinaryOperator)
  deriving Repr, DecidableEq

/-- How a unary operator is written. -/
def UnaryOperator.symbol : UnaryOperator → String
  | neg => "-"
  | not => "!"

/-- How an arithmetic operator is written. -/
def Arithmetic.symbol : Arithmetic → String
  | add => "+"
  | sub => "-"
  | mul => "*"
  | div => "/"
  | rem => "%"

/-- How a connective is written between booleans. -/
def Connective.symbol : Connective → String
  | and => "&&"
  | or => "||"
  | xor => "^"

/-- How a connective is written between integers. -/
def Connective.bitwiseSymbol : Connective → String
  | and => "&"
  | or => "|"
  | xor => "^"

/-- How a shift is written. -/
def Shift.symbol : Shift → String
  | left => "<<"
  | right => ">>"
  | unsignedRight => ">>>"

/-- How a comparison is written. -/
def Comparison.symbol : Comparison → String
  | eq => "=="
  | ne => "!="
  | lt => "<"
  | le => "<="
  | gt => ">"
  | ge => ">="

/-- How a binary operator is written. -/
def BinaryOperator.symbol : BinaryOperator → String
  | arithmetic op => op.symbol
  | connective op => op.symbol
  | shift op => op.symbol
  | comparison op => op.symbol

namespace Operator

/-- Every operator. The position in this list is the operator's number. -/
def all : List Operator :=
  [.binary (.arithmetic .add), .binary (.arithmetic .sub), .binary (.arithmetic .mul),
   .binary (.arithmetic .div), .binary (.arithmetic .rem), .unary .neg,
   .binary (.connective .and), .binary (.connective .or), .binary (.connective .xor),
   .unary .not, .binary (.shift .left), .binary (.shift .right), .binary (.shift .unsignedRight),
   .binary (.comparison .eq), .binary (.comparison .ne), .binary (.comparison .lt),
   .binary (.comparison .le), .binary (.comparison .gt), .binary (.comparison .ge)]

/-- The number of an operator. -/
def number (op : Operator) : Nat :=
  all.idxOf op

/-- The operator with the given number. -/
def ofNumber? (n : Int) : Option Operator :=
  if n < 0 then none else all[n.toNat]?

/-- How an operator is written. -/
def symbol : Operator → String
  | unary op => op.symbol
  | binary op => op.symbol

/-- The name of an operator given by number, which need not exist. -/
def nameOfNumber (n : Int) : String :=
  match ofNumber? n with
  | some op => op.symbol
  | none => "Operator<" ++ toString n ++ ">"

/-- The operator takes one operand. -/
def isUnary : Operator → Bool
  | unary _ => true
  | binary _ => false

/-- The operator compares its operands. -/
def isComparison : Operator → Bool
  | binary (.comparison _) => true
  | _ => false

/-- The operator shifts its left operand. -/
def isShift : Operator → Bool
  | binary (.shift _) => true
  | _ => false

/-- The operator a text stands for. A minus sign is subtraction, so negation
    is spelled out, and the bitwise spellings of the connectives are accepted
    beside the logical ones. -/
def ofSymbol? (s : String) : Option Operator :=
  match s with
  | "neg" => some (.unary .neg)
  | "&" => some (.binary (.connective .and))
  | "|" => some (.binary (.connective .or))
  | _ => all.find? fun op => op.symbol == s && op != .unary .neg

end Operator

namespace UnaryOperator

/-- The type of the operator applied to an operand of the given type:
    negation is for numbers, and negation of truth for booleans. -/
def resultType? (op : UnaryOperator) (t : Prim) : Option Prim :=
  match op with
  | neg => if t = .boolean then none else some (.promote t t)
  | not => if t = .boolean then some .boolean else none

/-- The type of the operator's result, whatever the operand. -/
def resultType (op : UnaryOperator) (t : Prim) : Prim :=
  match op with
  | neg => .promote t t
  | not => .boolean

end UnaryOperator

/-- How the types of an operation do not fit. -/
inductive OperationMismatch where
  /-- Truth values do not have the operator. -/
  | boolean (op : BinaryOperator)
  /-- Floating-point numbers do not have the operator. -/
  | floating (op : BinaryOperator)
  /-- Integers do not have the operator. -/
  | integral (op : BinaryOperator)
  /-- The result is no constant of the type. -/
  | result (error : ConstError)
  deriving Repr, DecidableEq

/-- The wording of a mismatch. -/
def OperationMismatch.message : OperationMismatch → String
  | boolean op => "operand type mismatch: boolean " ++ op.symbol
  | floating op => "operand type mismatch: floating " ++ op.symbol
  | integral op => "operand type mismatch: integral " ++ op.symbol
  | result e => e.message

/-- Why an operator has no result on constants. -/
inductive OperationError where
  /-- An integer is divided by zero. -/
  | divisionByZero
  /-- A division by zero was carried out, which ends the program. -/
  | trap
  /-- The types do not fit. -/
  | mismatch (error : OperationMismatch)
  deriving Repr, DecidableEq

/-- The operator on a constant, where the application has the given type. -/
def UnaryOperator.apply (op : UnaryOperator) (t : Prim) (c : Const) :
    Except OperationError Const :=
  match op with
  | not => .ok (.boolean (!c.toBool))
  | neg =>
    let result :=
      if t.isFloating then Const.floatingOf t (-c.toFloat) else Const.integralOf t (-c.toInt64)
    result.mapError fun e => .mismatch (.result e)

/-- The quotient of two integers, truncated toward zero, if there is one. -/
def quotient? (x y : Int64) : Option Int64 :=
  if y = 0 then none else some (x / y)

/-- The remainder that goes with the quotient, if there is one. -/
def remainder? (x y : Int64) : Option Int64 :=
  if y = 0 then none else some (x % y)

/-- A division whose divisor is checked first. The operands of an `int`
    division are cut to 32 bits between the check and the division. -/
def checkedDivision (divide : Int64 → Int64 → Option Int64) (t : Prim) (x y : Int64) :
    Except OperationError Int64 :=
  if y = 0 then .error .divisionByZero
  else
    let result :=
      if t = .int then divide x.toInt32.toInt64 y.toInt32.toInt64 else divide x y
    match result with
    | some r => .ok r
    | none => .error .trap

/-- An arithmetic operator on 64-bit integers, wrapping around. -/
def Arithmetic.onIntegers (op : Arithmetic) (t : Prim) (x y : Int64) :
    Except OperationError Int64 :=
  match op with
  | add => .ok (x + y)
  | sub => .ok (x - y)
  | mul => .ok (x * y)
  | div => checkedDivision quotient? t x y
  | rem => checkedDivision remainder? t x y

/-- An arithmetic operator on floating-point numbers. -/
def Arithmetic.onFloats (op : Arithmetic) (x y : Float) : Float :=
  match op with
  | add => x + y
  | sub => x - y
  | mul => x * y
  | div => x / y
  | rem => Number.remainder x y

/-- A connective on integers, bit by bit. -/
def Connective.onIntegers (op : Connective) (x y : Int64) : Int64 :=
  match op with
  | and => x &&& y
  | or => x ||| y
  | xor => x ^^^ y

/-- A connective on truth values. -/
def Connective.onBooleans (op : Connective) (x y : Bool) : Bool :=
  match op with
  | and => x && y
  | or => x || y
  | xor => x != y

/-- A shift of a 64-bit integer; the distance is taken modulo 64. -/
def Shift.onLongs (op : Shift) (x y : Int64) : Int64 :=
  let distance := y &&& 63
  match op with
  | left => x <<< distance
  | right => x >>> distance
  | unsignedRight => (x.toUInt64 >>> distance.toUInt64).toInt64

/-- A shift of a 32-bit integer; the distance is taken modulo 32. -/
def Shift.onInts (op : Shift) (x : Int32) (y : Int64) : Int32 :=
  let distance := (y &&& 31).toInt32
  match op with
  | left => x <<< distance
  | right => x >>> distance
  | unsignedRight => (x.toUInt32 >>> distance.toUInt32).toInt32

/-- A shift of an integer, at the width of the type it has. -/
def Shift.onIntegers (op : Shift) (t : Prim) (x y : Int64) : Int64 :=
  if t = .long then op.onLongs x y else (op.onInts x.toInt32 y).toInt64

/-- A comparison of integers. -/
def Comparison.onIntegers (op : Comparison) (x y : Int64) : Bool :=
  match op with
  | eq => x == y
  | ne => x != y
  | lt => x < y
  | le => x ≤ y
  | gt => x > y
  | ge => x ≥ y

/-- A comparison of floating-point numbers. -/
def Comparison.onFloats (op : Comparison) (x y : Float) : Bool :=
  match op with
  | eq => x == y
  | ne => x != y
  | lt => x < y
  | le => x ≤ y
  | gt => x > y
  | ge => x ≥ y

/-- A comparison of constants. If one of them is a floating-point number, both
    are compared as such. -/
def Comparison.onConstants (op : Comparison) (a b : Const) : Bool :=
  if a.isFloating || b.isFloating then op.onFloats a.toFloat b.toFloat
  else op.onIntegers a.toInt64 b.toInt64

namespace BinaryOperator

/-- The type of the operator applied to operands of the given types, if they
    fit. Comparisons take two booleans or none, connectives two booleans or
    two integers, shifts integers, and arithmetic no booleans. -/
def resultType? (op : BinaryOperator) (a b : Prim) : Option Prim :=
  match op with
  | comparison _ =>
    if (a = .boolean) ↔ (b = .boolean) then some .boolean else none
  | connective _ =>
    if a = .boolean ∧ b = .boolean then some .boolean
    else if a.isInteger && b.isInteger then some (.promote a b)
    else none
  | shift _ => if a.isInteger && b.isInteger then some (.promote a a) else none
  | arithmetic _ => if a = .boolean ∨ b = .boolean then none else some (.promote a b)

/-- The type of the operator's result, whatever the operands. -/
def resultType (op : BinaryOperator) (a b : Prim) : Prim :=
  match op with
  | comparison _ => .boolean
  | connective _ => if a = .boolean ∧ b = .boolean then .boolean else .promote a b
  | shift _ => .promote a a
  | arithmetic _ => .promote a b

/-- The operator on truth values, which have the connectives. -/
def onBooleans (op : BinaryOperator) (x y : Bool) : Except OperationError Bool :=
  match op with
  | connective c => .ok (c.onBooleans x y)
  | op => .error (.mismatch (.boolean op))

/-- The operator on floating-point numbers, which have arithmetic. -/
def onFloats (op : BinaryOperator) (x y : Float) : Except OperationError Float :=
  match op with
  | arithmetic o => .ok (o.onFloats x y)
  | op => .error (.mismatch (.floating op))

/-- The operator on integers, where the application has the given type. -/
def onIntegers (op : BinaryOperator) (t : Prim) (x y : Int64) : Except OperationError Int64 :=
  match op with
  | arithmetic o => o.onIntegers t x y
  | connective c => .ok (c.onIntegers x y)
  | shift s => .ok (s.onIntegers t x y)
  | op => .error (.mismatch (.integral op))

/-- The operator on constants, computed as the type of the application asks
    for. -/
def compute (op : BinaryOperator) (t : Prim) (a b : Const) : Except OperationError Const :=
  if t = .boolean then return .boolean (← op.onBooleans a.toBool b.toBool)
  else if t.isFloating then do
    let r ← op.onFloats a.toFloat b.toFloat
    (Const.floatingOf t r).mapError fun e => .mismatch (.result e)
  else do
    let r ← op.onIntegers t a.toInt64 b.toInt64
    (Const.integralOf t r).mapError fun e => .mismatch (.result e)

/-- The operator on constants, where the application has the given type. What a
    comparison does depends on the constants alone. -/
def apply (op : BinaryOperator) (t : Prim) (a b : Const) : Except OperationError Const :=
  match op with
  | comparison c => .ok (.boolean (c.onConstants a b))
  | op => op.compute t a b

/-- How the operator is written when its result has the given type: a
    connective is bitwise unless the result is boolean. -/
def symbolFor (op : BinaryOperator) (t : Prim) : String :=
  match op with
  | connective c => if t = .boolean then c.symbol else c.bitwiseSymbol
  | op => op.symbol

end BinaryOperator

end PathWitness
