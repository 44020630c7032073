import PathWitness.Expression.Token
import PathWitness.Term.Typing

/-!
# Reading Expressions

Expressions are read from tokens by a machine with two stacks: the values read
so far, and the operators and parentheses that still wait for an operand or
for their end. An operator of higher precedence is applied before one of lower
precedence, and of two with the same the left one first. Unary operators bind
tightest.

Values are computed while the text is read, in the order in which operands
become complete, so the first thing that goes wrong is what is reported. The
values of origins come from a lookup that the caller supplies, which may
change the caller's state, and which may find a place that holds nothing.

## Main definitions

* `ExprFault`, `ExprError`: Why a text is not an expression.
* `Spelling`, `spelling?`: The binary operators as they are written, and how
  tightly they bind.
* `Machine`: The state of the reader.
* `Machine.step`: What a token does.
* `Expression.parse`: Reads an expression.
-/

namespace PathWitness

namespace Expression

/-- Why a text is not an expression. Looking up an origin can fail in a way of
    its own. -/
inductive ExprFault (ε : Type) where
  /-- A token is malformed. -/
  | scan (fault : ScanFault)
  /-- A token stands where it cannot. -/
  | unexpected (text : String)
  /-- A parenthesis is not closed. -/
  | missingParenthesis
  /-- A bracket is not closed. -/
  | missingBracket
  /-- A dot has no field name after it. -/
  | fieldExpected
  /-- A bracket has no constant index after it. -/
  | indexExpected
  /-- An integer numeral does not denote a 64-bit integer. -/
  | integer (text : String) (fault : Number.NumeralFault)
  /-- A floating numeral does not denote a finite number. -/
  | floating (text : String) (fault : Number.NumeralFault)
  /-- An origin is malformed. -/
  | origin (error : OriginError)
  /-- An origin has no value. -/
  | lookup (cause : ε)
  /-- A binary operator has an operand that is not primitive. -/
  | referenceOperand (left op right : String)
  /-- A unary operator has an operand that is not primitive. -/
  | referenceArgument (op : UnaryOperator) (arg : String)
  /-- The operand types do not fit the operator. -/
  | term (error : TermError)

/-- The wording of an expression fault. -/
def ExprFault.message {ε : Type} [Fault ε] : ExprFault ε → String
  | scan f => f.message
  | unexpected s => "unexpected " ++ s
  | missingParenthesis => "missing )"
  | missingBracket => "missing ]"
  | fieldExpected => "field name expected after ."
  | indexExpected => "constant index expected"
  | integer s f => "strconv.ParseInt: parsing " ++ Text.quoted s ++ ": " ++ f.message
  | floating s f => "strconv.ParseFloat: parsing " ++ Text.quoted s ++ ": " ++ f.message
  | origin e => e.message
  | lookup e => Fault.message e
  | referenceOperand a op b => a ++ " " ++ op ++ " " ++ b ++ ": operands must be primitive"
  | referenceArgument op a => op.symbol ++ " applied to " ++ a
  | term e => e.message

/-- A fault together with the expression it was found in. -/
structure ExprError (ε : Type) where
  /-- The expression. -/
  source : String
  /-- What is wrong with it. -/
  fault : ExprFault ε

/-- The wording of an expression error. -/
def ExprError.message {ε : Type} [Fault ε] (e : ExprError ε) : String :=
  "expression " ++ Text.quoted e.source ++ ": " ++ e.fault.message

/-- The kind of an expression error: that of a failed lookup. -/
def ExprError.kind {ε : Type} [Fault ε] (e : ExprError ε) : ErrorKind :=
  match e.fault with
  | .lookup c => Fault.kind c
  | _ => .error

instance {ε : Type} [Fault ε] : Fault (ExprError ε) := ⟨ExprError.kind, ExprError.message⟩

/-- A binary operator as it is written, with the tightness of its binding. -/
structure Spelling where
  /-- The operator. -/
  op : BinaryOperator
  /-- The operator as it is written. -/
  text : String
  /-- How tightly the operator binds. -/
  level : Nat
  deriving Repr, DecidableEq

/-- The binary operator a text stands for. The bitwise and the logical
    spelling of a connective differ in precedence only. -/
def spelling? (text : String) : Option Spelling :=
  match text with
  | "||" => some ⟨.connective .or, text, 1⟩
  | "&&" => some ⟨.connective .and, text, 2⟩
  | "|" => some ⟨.connective .or, text, 3⟩
  | "^" => some ⟨.connective .xor, text, 4⟩
  | "&" => some ⟨.connective .and, text, 5⟩
  | "==" => some ⟨.comparison .eq, text, 6⟩
  | "!=" => some ⟨.comparison .ne, text, 6⟩
  | "<" => some ⟨.comparison .lt, text, 7⟩
  | "<=" => some ⟨.comparison .le, text, 7⟩
  | ">" => some ⟨.comparison .gt, text, 7⟩
  | ">=" => some ⟨.comparison .ge, text, 7⟩
  | "+" => some ⟨.arithmetic .add, text, 8⟩
  | "-" => some ⟨.arithmetic .sub, text, 8⟩
  | "*" => some ⟨.arithmetic .mul, text, 9⟩
  | "/" => some ⟨.arithmetic .div, text, 9⟩
  | "%" => some ⟨.arithmetic .rem, text, 9⟩
  | _ => none

/-- Something that waits for an operand or for its end. -/
inductive Pending where
  | unary (op : UnaryOperator)
  | binary (op : Spelling)
  | parenthesis
  deriving Repr, DecidableEq

/-- What the reader expects next. -/
inductive Mode where
  /-- An operand must come. -/
  | operand
  /-- An operand is complete. -/
  | complete
  /-- An integer numeral was read; the letter of a long may follow. -/
  | integer (text : String)
  /-- A floating numeral was read. -/
  | floating (text : String)
  /-- An origin was read, which may go on. -/
  | origin (path : String)
  /-- A field name must continue the origin. -/
  | field (path : String)
  /-- An index must continue the origin. -/
  | index (path : String)
  /-- The bracket of an index must be closed. -/
  | bracket (path : String)
  deriving Repr, DecidableEq

/-- The state of the reader. -/
structure Machine where
  /-- What waits, the innermost first. -/
  pending : List Pending := []
  /-- The values read, the latest first. -/
  values : List (Option Value) := []
  /-- What must come next. -/
  mode : Mode := .operand

/-- An operand as it is shown in messages. -/
def operandText : Option Value → String
  | some v => v.text
  | none => "%!s(<nil>)"

/-- A unary operator applied to a value. The negation of an integral constant
    is the constant of the same type. -/
def applyUnary {ε : Type} (op : UnaryOperator) (v : Option Value) :
    Except (ExprFault ε) (Option Value) :=
  match v with
  | some (.term t) =>
    match op, t with
    | .neg, .const c =>
      if c.isFloating then build t else .ok (some (.term (.const (.ofInt64 c.type (-c.toInt64)))))
    | _, _ => build t
  | v => .error (.referenceArgument op (operandText v))
where
  /-- The checked application. -/
  build (t : Term) : Except (ExprFault ε) (Option Value) :=
    match Term.mkUnary (.unary op) (some t) with
    | .ok t => .ok (some (.term t))
    | .error e => .error (.term e)

/-- A binary operator applied to two values. -/
def applyBinary {ε : Type} (op : Spelling) (left right : Option Value) :
    Except (ExprFault ε) (Option Value) :=
  match left, right with
  | some (.term a), some (.term b) =>
    match Term.mkBinary (.binary op.op) (some a) (some b) with
    | .ok t => .ok (some (.term t))
    | .error e => .error (.term e)
  | _, _ => .error (.referenceOperand (operandText left) op.text (operandText right))

/-- Applies the unary operators that wait for the latest value. -/
def applyUnaries {ε : Type} (v : Option Value) :
    List Pending → Except (ExprFault ε) (Option Value × List Pending)
  | .unary op :: rest => do applyUnaries (← applyUnary op v) rest
  | pending => .ok (v, pending)

/-- Applies the waiting binary operators of at least the given level to the
    latest values. -/
def applyBinaries {ε : Type} (level : Nat) :
    List Pending → List (Option Value) → Except (ExprFault ε) (List Pending × List (Option Value))
  | .binary op :: rest, right :: left :: values =>
    if level ≤ op.level then do
      applyBinaries level rest ((← applyBinary op left right) :: values)
    else .ok (.binary op :: rest, right :: left :: values)
  | pending, values => .ok (pending, values)

/-- The constant an integer numeral denotes: an `int` if it fits, a `long`
    otherwise. -/
def integerConst {ε : Type} (text : String) (long : Bool) : Except (ExprFault ε) Const :=
  match Number.parseInteger text.toList with
  | .error f => .error (.integer text f)
  | .ok n =>
    if long || n < -2147483648 || n > 2147483647 then .ok (.long n)
    else .ok (.int n.toInt32)

section

variable {ε : Type} {m : Type → Type} [Monad m]
  (lookup : Origin → m (Except ε (Option Value)))

/-- The value of an origin given by its text. -/
def originValue (path : String) : ExceptT (ExprFault ε) m (Option Value) :=
  match Origin.parse path with
  | .error e => throw (.origin e)
  | .ok o => do
    match ← lookup o with
    | .ok v => return v
    | .error e => throw (.lookup e)

/-- The reader after a value has become complete. -/
def Machine.accept (s : Machine) (v : Option Value) : ExceptT (ExprFault ε) m Machine := do
  let (v, pending) ← ExceptT.mk (pure (applyUnaries v s.pending))
  return ⟨pending, v :: s.values, .complete⟩

/-- The reader after the operand in hand is finished, if there is one: its
    value is computed and the waiting unary operators are applied to it. -/
def Machine.settle (s : Machine) : ExceptT (ExprFault ε) m Machine :=
  match s.mode with
  | .complete =>
    match s.values with
    | v :: values => { s with values := values }.accept v
    | [] => return s
  | .integer text => do
    s.accept (some (.term (.const (← ExceptT.mk (pure (integerConst text false))))))
  | .floating text =>
    match Number.parseFloating text.toList with
    | .ok x => s.accept (some (.term (.const (.double x))))
    | .error f => throw (.floating text f)
  | .origin path => do s.accept (← originValue lookup path)
  | .operand | .field _ | .index _ | .bracket _ => return s

/-- The reader after a token in place of an operand. -/
def Machine.operandToken (s : Machine) (t : Token) : ExceptT (ExprFault ε) m Machine :=
  match t.kind, t.text with
  | .mark, "-" => return { s with pending := .unary .neg :: s.pending }
  | .mark, "!" => return { s with pending := .unary .not :: s.pending }
  | .mark, "(" => return { s with pending := .parenthesis :: s.pending }
  | .integer, text => return { s with mode := .integer text }
  | .floating, text => return { s with mode := .floating text }
  | .identifier, "true" => value (.term (.const (.boolean true)))
  | .identifier, "false" => value (.term (.const (.boolean false)))
  | .identifier, "null" => value (.ref (.resolved .null))
  | .identifier, name => return { s with mode := .origin name }
  | .mark, text => throw (.unexpected text)
where
  /-- The reader with a value in hand. -/
  value (v : Value) : ExceptT (ExprFault ε) m Machine :=
    return { s with values := some v :: s.values, mode := .complete }

/-- The reader after a token that follows a complete operand. -/
def Machine.operatorToken (s : Machine) (t : Token) : ExceptT (ExprFault ε) m Machine := do
  match spelling? t.text with
  | some op =>
    let (pending, values) ← ExceptT.mk (pure (applyBinaries op.level s.pending s.values))
    return ⟨.binary op :: pending, values, .operand⟩
  | none =>
    let (pending, values) ← ExceptT.mk (pure (applyBinaries 0 s.pending s.values))
    match pending with
    | .parenthesis :: rest =>
      if t.text == ")" then return ⟨rest, values, .complete⟩ else throw .missingParenthesis
    | _ => throw (.unexpected t.text)

/-- What a token does to the reader. -/
def Machine.step (s : Machine) (t : Token) : ExceptT (ExprFault ε) m Machine := do
  if let some f := t.fault then throw (.scan f)
  match s.mode with
  | .operand => s.operandToken t
  | .field path =>
    if t.kind == .identifier then return { s with mode := .origin (path ++ "." ++ t.text) }
    else throw .fieldExpected
  | .index path =>
    if t.kind == .integer then return { s with mode := .bracket (path ++ "[" ++ t.text ++ "]") }
    else throw .indexExpected
  | .bracket path =>
    if t.text == "]" then return { s with mode := .origin path } else throw .missingBracket
  | .origin path =>
    if t.text == "." then return { s with mode := .field path }
    else if t.text == "[" then return { s with mode := .index path }
    else (← s.settle lookup).operatorToken t
  | .integer text =>
    if t.text == "L" then
      let c ← ExceptT.mk (pure (integerConst text true))
      return { s with values := some (.term (.const c)) :: s.values, mode := .complete }
    else (← s.settle lookup).operatorToken t
  | .floating _ | .complete => (← s.settle lookup).operatorToken t

/-- The value of the expression when all tokens have been read. -/
def Machine.finish (s : Machine) : ExceptT (ExprFault ε) m (Option Value) := do
  match s.mode with
  | .operand => throw (.unexpected "")
  | .field _ => throw .fieldExpected
  | .index _ => throw .indexExpected
  | .bracket _ => throw .missingBracket
  | .origin _ | .integer _ | .floating _ | .complete =>
    let s ← s.settle lookup
    let (pending, values) ← ExceptT.mk (pure (applyBinaries 0 s.pending s.values))
    match pending, values with
    | [], v :: _ => return v
    | _, _ => throw .missingParenthesis

/-- Reads an expression, where `lookup` gives the values of its origins. -/
def parse (source : String) : m (Except (ExprError ε) (Option Value)) := do
  let run : ExceptT (ExprFault ε) m (Option Value) := do
    let s ← (Token.scan source).foldlM (Machine.step lookup) {}
    s.finish lookup
  match ← run with
  | .ok v => return .ok v
  | .error f => return .error ⟨source, f⟩

end

end Expression

end PathWitness
