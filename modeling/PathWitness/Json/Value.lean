import PathWitness.Number.Numeral
import PathWitness.Text.Octet
import PathWitness.Text.Quoted

/-!
# JSON Texts

A JSON text is read strictly: one value with nothing but white space around
it. The first character that cannot stand where it stands is reported together
with what was being read.

## Main definitions

* `Value`: A JSON value. Numbers are kept as they are written.
* `TextFault`: Why a text is not a JSON text.
* `Value.parse`: Reads a JSON text.
-/

namespace PathWitness

namespace Json

/-- A JSON value. -/
inductive Value where
  | null
  | bool (value : Bool)
  /-- A number, as it is written. -/
  | number (text : String)
  | string (text : String)
  | array (items : List Value)
  /-- Members in the order in which they are written. -/
  | object (members : List (String × Value))
  deriving Repr, Inhabited

/-- Why a text is not a JSON text. -/
inductive TextFault where
  /-- The text ends too early. -/
  | ended
  /-- A character cannot stand where it stands. -/
  | unexpected (char : Char) (place : String)
  /-- An escape stands for nothing. -/
  | escape (written : List Text.Piece)
  /-- Values are nested too deep. -/
  | tooDeep
  deriving Repr, DecidableEq

/-- A piece of text can be shown as it is, between backquotes. -/
def isPlain : Text.Piece → Bool
  | .char c => Text.isPrintable c && c != ' ' && c != '\x60' && c != '\ufffd'
  | .octet _ => false

/-- The wording of a text fault. -/
def TextFault.message : TextFault → String
  | ended => "unexpected end of JSON input"
  | unexpected c place => "invalid character " ++ Text.quotedChar c ++ " " ++ place
  | escape written =>
    let shown := if written.all isPlain then "\x60" ++ Text.shown written ++ "\x60"
      else Text.quotedPieces written
    "invalid escape sequence " ++ shown ++ " in string"
  | tooDeep => "exceeded max depth"

/-- White space between the parts of a JSON text. -/
def isSpace (c : Char) : Bool :=
  c == ' ' || c == '\t' || c == '\r' || c == '\n'

/-- The text without white space at its beginning. -/
def skipSpace (cs : List Char) : List Char :=
  cs.dropWhile isSpace

/-- The text cannot go on as it does. -/
def refuse {α : Type} (place : String) : List Char → Except TextFault α
  | [] => .error .ended
  | c :: _ => .error (.unexpected c place)

/-- Reads the letters that are left of a word. -/
def readWord (word : String) : List Char → List Char → Except TextFault (List Char)
  | [], rest => .ok rest
  | w :: letters, rest =>
    match rest with
    | [] => .error .ended
    | c :: more => if c == w then readWord word letters more else refuse (place w) rest
where
  /-- What is being read. -/
  place (w : Char) : String := "in literal " ++ word ++ " (expecting " ++ Text.quotedChar w ++ ")"

/-- Reads at least one digit. -/
def readDigits (cs : List Char) : Except TextFault (List Char × List Char) :=
  let digits := cs.takeWhile Number.isDigit
  if digits.isEmpty then refuse "in numeric literal" cs
  else .ok (digits, cs.dropWhile Number.isDigit)

/-- Reads the digits before the point: a zero, or digits that start with
    another one. -/
def readWhole (cs : List Char) : Except TextFault (List Char × List Char) :=
  match cs with
  | '0' :: rest => .ok (['0'], rest)
  | _ => readDigits cs

/-- Reads the part of a number after its point, if it has one. -/
def readFraction (cs : List Char) : Except TextFault (List Char × List Char) :=
  match cs with
  | '.' :: rest => do
    let (digits, rest) ← readDigits rest
    return ('.' :: digits, rest)
  | _ => return ([], cs)

/-- Reads the power of ten of a number, if it has one. -/
def readExponent (cs : List Char) : Except TextFault (List Char × List Char) :=
  match cs with
  | [] => return ([], [])
  | e :: rest =>
    if e == 'e' || e == 'E' then do
      let (sign, rest) := match rest with
        | '+' :: rest => (['+'], rest)
        | '-' :: rest => (['-'], rest)
        | _ => ([], rest)
      let (digits, rest) ← readDigits rest
      return (e :: sign ++ digits, rest)
    else return ([], cs)

/-- Reads a number. -/
def readNumber (cs : List Char) : Except TextFault (Value × List Char) := do
  let (sign, cs) := match cs with
    | '-' :: rest => (['-'], rest)
    | _ => ([], cs)
  let (whole, cs) ← readWhole cs
  let (fraction, cs) ← readFraction cs
  let (exponent, cs) ← readExponent cs
  return (.number (String.ofList (sign ++ whole ++ fraction ++ exponent)), cs)

/-- The character that an escape stands for, if it takes no digits. -/
def escaped? : Char → Option Char
  | 'b' => some '\x08'
  | 'f' => some '\x0c'
  | 'n' => some '\n'
  | 'r' => some '\r'
  | 't' => some '\t'
  | '\\' => some '\\'
  | '/' => some '/'
  | '"' => some '"'
  | _ => none

/-- A string that is being read, as code units of which some may be halves of
    characters. -/
structure StringText where
  /-- The text so far, the latest character first. -/
  text : List Char := []
  /-- The first half of a character whose second half may follow. -/
  half : Option Nat := none

namespace StringText

/-- What stands for a half of a character that is alone. -/
def replacement : Char := '\ufffd'

/-- The text with a half that is alone replaced. -/
def settled (s : StringText) : List Char :=
  match s.half with
  | some _ => replacement :: s.text
  | none => s.text

/-- The text with one more character. -/
def push (s : StringText) (c : Char) : StringText :=
  ⟨c :: s.settled, none⟩

/-- The text with one more code unit. Two halves make up one character. -/
def pushUnit (s : StringText) (n : Nat) : StringText :=
  match s.half with
  | some first =>
    if 0xdc00 ≤ n && n < 0xe000 then
      ⟨Char.ofNat (0x10000 + (first - 0xd800) * 0x400 + (n - 0xdc00)) :: s.text, none⟩
    else pushAlone s n
  | none => pushAlone s n
where
  /-- The text with a code unit that does not follow a first half. -/
  pushAlone (s : StringText) (n : Nat) : StringText :=
    if 0xd800 ≤ n && n < 0xdc00 then ⟨s.settled, some n⟩
    else if 0xdc00 ≤ n && n < 0xe000 then s.push replacement
    else s.push (Char.ofNat n)

end StringText

/-- The code unit that four hexadecimal digits stand for. -/
def codeUnit? (digits : List Char) : Option Nat :=
  if digits.length == 4 && digits.all Number.isHexDigit then Number.readDigits 16 0 digits
  else none

/-- The escape that the rest of a text starts with is not one, unless the text
    just ends inside of it. -/
def refuseEscape {α : Type} (rest : List Char) : Except TextFault α :=
  match rest with
  | [] => .error .ended
  | 'u' :: digits =>
    if digits.length < 4 && digits.all Number.isHexDigit then .error .ended
    else .error (.escape (Text.cut 6 ('\\' :: rest)))
  | _ => .error (.escape (Text.cut 2 ('\\' :: rest)))

/-- Reads a string up to its closing quotation mark. The characters of an escape
    are passed over after its first one. -/
def readStringFrom (s : StringText) (passed : Nat) :
    List Char → Except TextFault (String × List Char)
  | [] => .error .ended
  | c :: rest =>
    if 0 < passed then readStringFrom s (passed - 1) rest
    else if c == '"' then .ok (String.ofList s.settled.reverse, rest)
    else if c.toNat < 0x20 then refuse "in string" (c :: rest)
    else if c == '\\' then
      let unit := if rest.head? == some 'u' then codeUnit? ((rest.drop 1).take 4) else none
      match unit, rest.head?.bind escaped? with
      | some n, _ => readStringFrom (s.pushUnit n) 5 rest
      | none, some e => readStringFrom (s.push e) 1 rest
      | none, none => refuseEscape rest
    else readStringFrom (s.push c) 0 rest

/-- Reads the name of a member. -/
def readName (cs : List Char) : Except TextFault (String × List Char) :=
  match cs with
  | '"' :: rest => readStringFrom {} 0 rest
  | _ => refuse "looking for beginning of object key string" cs

/-- How deep values may be nested. -/
def maxDepth : Nat := 10000

mutual

/-- Reads a value that is nested in others to some depth. -/
def readValue : Nat → Nat → List Char → Except TextFault (Value × List Char)
  | 0, _, _ => .error .ended
  | n + 1, depth, cs =>
    match skipSpace cs with
    | '\x7b' :: rest => do
      if maxDepth ≤ depth then .error .tooDeep
      else
        match skipSpace rest with
        | '\x7d' :: rest => return (.object [], rest)
        | _ =>
          let (members, rest) ← readMembers n (depth + 1) rest
          return (.object members, rest)
    | '[' :: rest => do
      if maxDepth ≤ depth then .error .tooDeep
      else
        match skipSpace rest with
        | ']' :: rest => return (.array [], rest)
        | _ =>
          let (items, rest) ← readItems n (depth + 1) rest
          return (.array items, rest)
    | '"' :: rest => do
      let (s, rest) ← readStringFrom {} 0 rest
      return (.string s, rest)
    | 't' :: rest => do return (.bool true, ← readWord "true" ['r', 'u', 'e'] rest)
    | 'f' :: rest => do return (.bool false, ← readWord "false" ['a', 'l', 's', 'e'] rest)
    | 'n' :: rest => do return (.null, ← readWord "null" ['u', 'l', 'l'] rest)
    | [] => .error .ended
    | c :: rest =>
      if c == '-' || Number.isDigit c then readNumber (c :: rest)
      else refuse "looking for beginning of value" (c :: rest)

/-- Reads the members of an object up to its end. -/
def readMembers : Nat → Nat → List Char → Except TextFault (List (String × Value) × List Char)
  | 0, _, _ => .error .ended
  | n + 1, depth, cs => do
    let (name, cs) ← readName (skipSpace cs)
    match skipSpace cs with
    | ':' :: cs =>
      let (value, cs) ← readValue n depth cs
      match skipSpace cs with
      | ',' :: cs =>
        let (members, cs) ← readMembers n depth cs
        return ((name, value) :: members, cs)
      | '\x7d' :: cs => return ([(name, value)], cs)
      | cs => refuse "after object key:value pair" cs
    | cs => refuse "after object key" cs

/-- Reads the items of an array up to its end. -/
def readItems : Nat → Nat → List Char → Except TextFault (List Value × List Char)
  | 0, _, _ => .error .ended
  | n + 1, depth, cs => do
    let (item, cs) ← readValue n depth cs
    match skipSpace cs with
    | ',' :: cs =>
      let (items, cs) ← readItems n depth cs
      return (item :: items, cs)
    | ']' :: cs => return ([item], cs)
    | cs => refuse "after array element" cs

end

/-- Reads a JSON text. -/
def Value.parse (text : String) : Except TextFault Value := do
  let cs := text.toList
  let (value, rest) ← readValue (2 * cs.length + 2) 0 cs
  match skipSpace rest with
  | [] => return value
  | rest => refuse "after top-level value" rest

end Json

end PathWitness
