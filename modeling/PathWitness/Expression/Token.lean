import PathWitness.Number.Numeral
import PathWitness.Text.Letter
import PathWitness.Text.Quoted

/-!
# Tokens of Expressions

The words an expression is made of: identifiers, integer and floating
numerals, and marks of one or two characters. Blanks, tabs and line ends
separate tokens; a byte-order mark at the very start is skipped.

A numeral is read greedily and only then checked, so a malformed one is a
token with a fault. A zero character is never allowed; its fault belongs to
the token during whose reading it came into view, which is the one right
before it unless white space lies between.

## Main definitions

* `Token`: A word of an expression.
* `scanNumeral`: Reads a numeral.
* `Token.scan`: The tokens of a text.
-/

namespace PathWitness

namespace Expression

/-- The kinds of tokens. -/
inductive TokenKind where
  | identifier
  | integer
  | floating
  | mark
  deriving Repr, DecidableEq

/-- The bases a numeral can be marked with. -/
inductive Radix where
  | decimal
  | hexadecimal
  | octal
  /-- Octal by a leading zero alone. -/
  | leadingZero
  | binary
  deriving Repr, DecidableEq

/-- What a numeral of a base is called. -/
def Radix.noun : Radix → String
  | decimal => "decimal literal"
  | hexadecimal => "hexadecimal literal"
  | octal | leadingZero => "octal literal"
  | binary => "binary literal"

/-- What can be wrong with a token. -/
inductive ScanFault where
  | zeroCharacter
  | radixPoint (radix : Radix)
  | noDigits (radix : Radix)
  | decimalExponent (mark : Char)
  | binaryExponent (mark : Char)
  | emptyExponent
  | missingExponent
  | invalidDigit (digit : Char) (radix : Radix)
  | separator
  deriving Repr, DecidableEq

/-- The wording of a scan fault. -/
def ScanFault.message : ScanFault → String
  | zeroCharacter => "invalid character NUL"
  | radixPoint r => "invalid radix point in " ++ r.noun
  | noDigits r => r.noun ++ " has no digits"
  | decimalExponent c => Text.quotedChar c ++ " exponent requires decimal mantissa"
  | binaryExponent c => Text.quotedChar c ++ " exponent requires hexadecimal mantissa"
  | emptyExponent => "exponent has no digits"
  | missingExponent => "hexadecimal mantissa requires a 'p' exponent"
  | invalidDigit d r => "invalid digit " ++ Text.quotedChar d ++ " in " ++ r.noun
  | separator => "'_' must separate successive digits"

/-- A word of an expression. -/
structure Token where
  /-- The kind of the token. -/
  kind : TokenKind
  /-- The token as it is written. -/
  text : String
  /-- What is wrong with the token. -/
  fault : Option ScanFault := none
  deriving Repr, DecidableEq

/-- A character that separates tokens. -/
def isSeparator (c : Char) : Bool :=
  c == '\t' || c == '\n' || c == '\r' || c == ' '

/-- A character an identifier can start with. -/
def startsIdentifier (c : Char) : Bool :=
  c == '_' || Text.isLetter c

/-- A character an identifier can go on with. -/
def continuesIdentifier (c : Char) : Bool :=
  startsIdentifier c || Text.isDecimalDigit c

/-- The zero character comes into view next. -/
def zeroAhead (rest : List Char) : List ScanFault :=
  if rest.head? == some '\x00' then [.zeroCharacter] else []

/-- The longest run of digits and underscores. -/
def digitRun (hex : Bool) (cs : List Char) : List Char :=
  cs.takeWhile fun c => Number.isDigit c || (hex && Number.isHexDigit c) || c == '_'

/-- The base of a numeral and the characters that mark it. -/
def numeralRadix : List Char → Radix × List Char
  | '0' :: c :: _ =>
    match Number.lowerAscii c with
    | 'x' => (.hexadecimal, ['0', c])
    | 'o' => (.octal, ['0', c])
    | 'b' => (.binary, ['0', c])
    | _ => (.leadingZero, ['0'])
  | ['0'] => (.leadingZero, ['0'])
  | _ => (.decimal, [])

/-- The first digit that does not belong to the base. -/
def firstInvalidDigit (radix : Radix) (digits : List Char) : Option Char :=
  match radix with
  | .octal | .leadingZero => digits.find? fun c => c != '_' && c ≥ '8'
  | .binary => digits.find? fun c => c != '_' && c ≥ '2'
  | .decimal | .hexadecimal => none

/-- The characters of an exponent: its mark, a sign and digits. -/
structure Exponent where
  /-- The letter that marks the exponent. -/
  mark : Char
  /-- The sign, if there is one. -/
  sign : List Char
  /-- The digits. -/
  digits : List Char

/-- The exponent at the front of a text, if there is one. -/
def exponentAhead? (cs : List Char) : Option Exponent :=
  match cs with
  | c :: rest =>
    let mark := Number.lowerAscii c
    if mark == 'e' || mark == 'p' then
      let sign := (rest.take 1).filter fun s => s == '+' || s == '-'
      some ⟨c, sign, digitRun false (rest.drop sign.length)⟩
    else none
  | [] => none

/-- Reads a numeral that starts with a digit, or with a point and a digit. The
    faults are in the order in which they are noticed, and the first counts. -/
def scanNumeral (cs : List Char) : Token × List Char :=
  let pointFirst := cs.head? == some '.'
  let (radix, mark) := if pointFirst then (.decimal, []) else numeralRadix cs
  let hex := radix == .hexadecimal
  let whole := if pointFirst then [] else digitRun hex (cs.drop mark.length)
  let afterWhole := cs.drop (mark.length + whole.length)
  let pointed := afterWhole.head? == some '.'
  let fraction := if pointed then digitRun hex (afterWhole.drop 1) else []
  let afterFraction := if pointed then afterWhole.drop (1 + fraction.length) else afterWhole
  let exponent := exponentAhead? afterFraction
  let exponentText :=
    match exponent with
    | some e => e.mark :: e.sign ++ e.digits
    | none => []
  let rest := afterFraction.drop exponentText.length
  let text := cs.take (cs.length - rest.length)
  let isFloating := pointed || exponent.isSome
  let digits := whole ++ fraction
  let zero := zeroAhead rest
  let radixPoint : List ScanFault :=
    if pointed && (radix == .octal || radix == .binary) then [.radixPoint radix] else []
  let noDigits : List ScanFault :=
    if radix != .leadingZero && digits.all (· == '_') then [.noDigits radix] else []
  let wrongExponent : List ScanFault :=
    match exponent with
    | some e =>
      if Number.lowerAscii e.mark == 'e' then
        if radix == .decimal || radix == .leadingZero then [] else [.decimalExponent e.mark]
      else if hex then [] else [.binaryExponent e.mark]
    | none => []
  let exponentFault : List ScanFault :=
    match exponent with
    | some e => if e.digits.all (· == '_') then [.emptyExponent] else []
    | none => if hex && isFloating then [.missingExponent] else []
  let invalidDigit : List ScanFault :=
    if isFloating then []
    else match firstInvalidDigit radix digits with
      | some d => [.invalidDigit d radix]
      | none => []
  let separator : List ScanFault :=
    if text.contains '_' && !Number.separatorsFit text then [.separator] else []
  let early :=
    if exponent.isSome then radixPoint ++ noDigits ++ wrongExponent ++ zero
    else if !fraction.isEmpty then radixPoint ++ zero ++ noDigits
    else zero ++ radixPoint ++ noDigits
  let faults := early ++ exponentFault ++ invalidDigit ++ separator
  (⟨if isFloating then .floating else .integer, String.ofList text, faults.head?⟩, rest)

/-- The length of the mark at the front of a text: two characters for a
    comparison with an equals sign and for a doubled `&` or `|`. -/
def markLength : List Char → Nat
  | c :: d :: _ =>
    if (c == '=' || c == '!' || c == '<' || c == '>') && d == '=' then 2
    else if (c == '&' || c == '|') && d == c then 2
    else 1
  | _ => 1

/-- Reads the token at the front of a text that is not empty and starts with no
    separator. -/
def scanToken (cs : List Char) : Token × List Char :=
  match cs with
  | [] => (⟨.mark, "", none⟩, [])
  | c :: rest =>
    if startsIdentifier c then
      let word := c :: rest.takeWhile continuesIdentifier
      let tail := cs.drop word.length
      (⟨.identifier, String.ofList word, (zeroAhead tail).head?⟩, tail)
    else if Number.isDigit c || (c == '.' && (rest.head?.map Number.isDigit).getD false) then
      scanNumeral cs
    else
      let n := markLength cs
      let tail := cs.drop n
      (⟨.mark, String.ofList (cs.take n), (zeroAhead cs ++ zeroAhead tail).head?⟩, tail)

/-- The tokens of a text, at most as many as the first argument says. -/
def scanTokens : Nat → List Char → List Token
  | 0, _ => []
  | limit + 1, cs =>
    match cs.dropWhile isSeparator with
    | [] => []
    | c :: rest =>
      let (token, tail) := scanToken (c :: rest)
      token :: scanTokens limit tail

/-- The tokens of a text. Every token takes at least one character, so there
    are no more of them than characters. -/
def Token.scan (source : String) : List Token :=
  let cs := source.toList
  let body := if cs.head? == some '\ufeff' then cs.drop 1 else cs
  scanTokens body.length body

end Expression

end PathWitness
