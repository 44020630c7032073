import PathWitness.Fault
import PathWitness.Operator
import PathWitness.Symbol

/-!
# Terms

Symbolic expressions over primitive values: constants, symbols, operators,
conversions, and applications of named functions nothing is known about.

A term records no types of its own except where they cannot be computed.
`Term.type` reads the type of a term off its structure; the builders in
`Term.Typing` only make terms for which that type is meaningful.

## Main definitions

* `Term`: A symbolic expression of a primitive type.
* `Value`: A term or a reference.
* `Term.type`: The type of a term.
* `Term.text`: A term as it is shown and compared.
* `AbsentTerm`: The error that a term is missing.
-/

namespace PathWitness

/-- The two directions of a conversion. -/
inductive Conversion where
  | widening
  | narrowing
  deriving Repr, DecidableEq

mutual

/-- A symbolic expression of a primitive type. -/
inductive Term where
  | const (c : Const)
  | symbol (s : PrimSymbol)
  | unary (op : UnaryOperator) (arg : Term)
  | binary (op : BinaryOperator) (left right : Term)
  | convert (direction : Conversion) (dest : Prim) (arg : Term)
  | apply (type : Prim) (name : String) (args : List Value)

/-- A value of any type. -/
inductive Value where
  | term (t : Term)
  | ref (r : Reference)

end

/-- The type of a term. -/
def Term.type : Term → Prim
  | const c => c.type
  | symbol s => s.type
  | unary op arg => op.resultType arg.type
  | binary op left right => op.resultType left.type right.type
  | convert _ dest _ => dest
  | apply type _ _ => type

/-- How the operator of a binary term is written. -/
def Term.binarySymbol (op : BinaryOperator) (left right : Term) : String :=
  op.symbolFor (op.resultType left.type right.type)

/-- The word that stands for a conversion. -/
def Conversion.word : Conversion → String
  | widening => "WIDEN-"
  | narrowing => "NARROW-"

mutual

/-- A term as it is shown. Binary operators are in parentheses, unary ones are
    not. -/
def Term.text : Term → String
  | .const c => c.text
  | .symbol s => s.id
  | .unary op arg => op.symbol ++ arg.text
  | .binary op left right =>
    "(" ++ left.text ++ " " ++ Term.binarySymbol op left right ++ " " ++ right.text ++ ")"
  | .convert direction dest arg =>
    direction.word ++ arg.type.descriptor ++ dest.descriptor ++ "(" ++ arg.text ++ ")"
  | .apply _ name args => name ++ "(" ++ String.intercalate "," (argTexts args) ++ ")"

/-- The texts of the arguments of an application. -/
def argTexts : List Value → List String
  | [] => []
  | .term t :: rest => t.text :: argTexts rest
  | .ref r :: rest => r.text :: argTexts rest

end

/-- The term is a constant. -/
def Term.const? : Term → Option Const
  | const c => some c
  | _ => none

/-- There is no term. -/
structure AbsentTerm where
  deriving Repr, DecidableEq

/-- The wording of the error that there is no term. -/
def AbsentTerm.message (_ : AbsentTerm) : String :=
  "unsupported value kind: nil primitive"

instance : Fault AbsentTerm := ⟨fun _ => .unsupportedValue, AbsentTerm.message⟩

namespace Value

/-- A value as it is shown. -/
def text : Value → String
  | term t => t.text
  | ref r => r.text

/-- The descriptor of a value's type. -/
def type : Value → String
  | term t => t.type.descriptor
  | ref r => r.type

/-- The value that is a symbol. -/
def ofSymbol : Symbol → Value
  | .prim s => term (.symbol s)
  | .ref s => ref (.symbolic s)

/-- The term a value is, if it is primitive. -/
def term? : Value → Option Term
  | term t => some t
  | ref _ => none

/-- The reference a value is, if it is one. -/
def ref? : Value → Option Reference
  | ref r => some r
  | term _ => none

end Value

end PathWitness
