import PathWitness.Number.Floating
import PathWitness.Number.Power
import PathWitness.Text.Quoted

/-!
# Numerals

Reading numbers from text.

An integer numeral has an optional sign and a base chosen by its first digits:
`0x`, `0o` or a bare `0`, `0b`, and decimal otherwise. A floating numeral is
decimal with an optional power of ten, or hexadecimal with a mandatory power
of two, or one of the words for infinity and for a value that is not a number.
In all of them an underscore may stand between two digits, or between the mark
of the base and a digit.

The value of a floating numeral is computed as an exact fraction and rounded
once.

## Main definitions

* `NumeralFault`: Why a text is not the numeral of a number.
* `separatorsFit`: Every underscore separates digits.
* `parseInteger`: Reads a 64-bit integer.
* `parseDecimal32`: Reads a 32-bit integer in plain decimal.
* `parseFloating`: Reads a 64-bit floating-point number.
-/

namespace PathWitness

namespace Number

/-- Why a text is not the numeral of a number. -/
inductive NumeralFault where
  /-- The text is no numeral. -/
  | malformed
  /-- The number does not fit. -/
  | outOfRange
  deriving Repr, DecidableEq

/-- The wording of a numeral fault. -/
def NumeralFault.message : NumeralFault → String
  | malformed => "invalid syntax"
  | outOfRange => "value out of range"

/-- The value of a digit, in any base up to 36. -/
def digitValue? (c : Char) : Option Nat :=
  if '0' ≤ c ∧ c ≤ '9' then some (c.toNat - '0'.toNat)
  else if 'a' ≤ c ∧ c ≤ 'z' then some (c.toNat - 'a'.toNat + 10)
  else if 'A' ≤ c ∧ c ≤ 'Z' then some (c.toNat - 'A'.toNat + 10)
  else none

/-- A decimal digit. -/
def isDigit (c : Char) : Bool :=
  '0' ≤ c && c ≤ '9'

/-- A hexadecimal digit. -/
def isHexDigit (c : Char) : Bool :=
  isDigit c || ('a' ≤ c && c ≤ 'f') || ('A' ≤ c && c ≤ 'F')

/-- An ASCII letter in lower case; any other character stays. -/
def lowerAscii (c : Char) : Char :=
  if 'A' ≤ c && c ≤ 'Z' then Char.ofNat (c.toNat + 32) else c

/-- Drops a leading sign and tells whether it was a minus. -/
def splitSign : List Char → Bool × List Char
  | '-' :: rest => (true, rest)
  | '+' :: rest => (false, rest)
  | cs => (false, cs)

/-- What the character before an underscore may be: a digit, an underscore, or
    anything else. -/
inductive Neighbour where
  | digit
  | separator
  | other
  deriving DecidableEq

/-- Every underscore of the text follows a digit and is followed by one. -/
def separatorsFitFrom (hex : Bool) : Neighbour → List Char → Bool
  | last, [] => last != .separator
  | last, c :: rest =>
    if isDigit c || (hex && isHexDigit c) then separatorsFitFrom hex .digit rest
    else if c == '_' then last == .digit && separatorsFitFrom hex .separator rest
    else last != .separator && separatorsFitFrom hex .other rest

/-- Every underscore of an unsigned numeral separates digits; the mark of the
    base counts as a digit. -/
def separatorsFit : List Char → Bool
  | '0' :: c :: rest =>
    match lowerAscii c with
    | 'x' => separatorsFitFrom true .digit rest
    | 'o' | 'b' => separatorsFitFrom false .digit rest
    | _ => separatorsFitFrom false .other ('0' :: c :: rest)
  | cs => separatorsFitFrom false .other cs

/-- The base of an unsigned integer numeral and the digits after its mark. -/
def splitBase : List Char → Nat × List Char
  | '0' :: c :: d :: rest =>
    match lowerAscii c with
    | 'x' => (16, d :: rest)
    | 'o' => (8, d :: rest)
    | 'b' => (2, d :: rest)
    | _ => (8, c :: d :: rest)
  | '0' :: rest => (8, rest)
  | cs => (10, cs)

/-- Appends the digits of a text to a number; underscores are skipped. -/
def readDigits (base : Nat) : Nat → List Char → Option Nat
  | n, [] => some n
  | n, '_' :: rest => readDigits base n rest
  | n, c :: rest =>
    match digitValue? c with
    | some d => if d < base then readDigits base (n * base + d) rest else none
    | none => none

/-- Reads an unsigned integer numeral. -/
def parseNatural (cs : List Char) : Option Nat :=
  if cs.isEmpty then none
  else
    let (base, digits) := splitBase cs
    if digits.contains '_' && !separatorsFit cs then none else readDigits base 0 digits

/-- Reads a 64-bit integer. -/
def parseInteger (cs : List Char) : Except NumeralFault Int64 :=
  let (negative, magnitude) := splitSign cs
  match parseNatural magnitude with
  | none => .error .malformed
  | some n =>
    if negative then
      if n ≤ pow2 63 then .ok (Int64.ofInt (-n)) else .error .outOfRange
    else if n < pow2 63 then .ok (Int64.ofNat n) else .error .outOfRange

/-- Reads a 32-bit integer in decimal: an optional sign and digits only. -/
def parseDecimal32 (cs : List Char) : Option Int :=
  let (negative, digits) := splitSign cs
  if digits.isEmpty || !digits.all isDigit then none
  else
    match readDigits 10 0 digits with
    | none => none
    | some n =>
      let i : Int := if negative then -n else n
      if leastInt32 ≤ i && i ≤ greatestInt32 then some i else none

/-- The digits of a mantissa, as an integer and the number of digits after the
    point, with the rest of the text. Digits are read as long as there is at
    most one point among them. -/
structure Mantissa where
  /-- The digits without the point, as one number. -/
  value : Nat := 0
  /-- The number of digits after the point. -/
  places : Nat := 0
  /-- The point has been seen. -/
  pointed : Bool := false
  /-- A digit has been seen. -/
  hasDigits : Bool := false

/-- Reads the digits of a mantissa. -/
def readMantissa (hex : Bool) (m : Mantissa) : List Char → Mantissa × List Char
  | '_' :: rest => readMantissa hex m rest
  | '.' :: rest =>
    if m.pointed then (m, '.' :: rest) else readMantissa hex { m with pointed := true } rest
  | c :: rest =>
    if isDigit c || (hex && isHexDigit c) then
      let base := if hex then 16 else 10
      readMantissa hex
        { m with
          value := m.value * base + (digitValue? c).getD 0
          places := if m.pointed then m.places + 1 else m.places
          hasDigits := true } rest
    else (m, c :: rest)
  | [] => (m, [])

/-- Reads the exponent after its mark: an optional sign and at least one
    digit, up to the end of the text. -/
def readExponent (cs : List Char) : Option Int :=
  let (negative, digits) := splitSign cs
  match digits with
  | c :: _ =>
    if isDigit c then
      (readDigits 10 0 digits).map fun n => if negative then -(n : Int) else n
    else none
  | [] => none

/-- The number `±value · base ^ exponent`, which must not be beyond the largest
    finite number. Exponents that no digits can make up for are decided without
    computing the power. -/
def scaled (negative : Bool) (value base : Nat) (exponent : Int) : Except NumeralFault Float :=
  let length := Nat.log2 value
  if value == 0 then .ok (ofFraction negative 0 1)
  else if exponent > 2000 then .error .outOfRange
  else if exponent < -2000 - length then .ok (ofFraction negative 0 1)
  else
    let x := ofFraction negative (value * Nat.pow base exponent.toNat)
      (Nat.pow base (-exponent).toNat)
    match readFloat x with
    | .finite .. => .ok x
    | _ => .error .outOfRange

/-- Reads an unsigned floating numeral made of digits. -/
def parseMagnitude (negative : Bool) (cs : List Char) : Except NumeralFault Float :=
  let (hex, body) :=
    match cs with
    | '0' :: c :: d :: rest => if lowerAscii c == 'x' then (true, d :: rest) else (false, cs)
    | _ => (false, cs)
  let (m, rest) := readMantissa hex {} body
  let exponent : Option Int :=
    match rest with
    | [] => if hex then none else some 0
    | c :: tail => if lowerAscii c == (if hex then 'p' else 'e') then readExponent tail else none
  match exponent with
  | none => .error .malformed
  | some e =>
    if !m.hasDigits then .error .malformed
    else if cs.contains '_' && !separatorsFit cs then .error .malformed
    else if hex then scaled negative m.value 2 (e - 4 * m.places)
    else scaled negative m.value 10 (e - m.places)

/-- Reads a 64-bit floating-point number. The words for infinity may have a
    sign; the word for a value that is not a number may not. -/
def parseFloating (cs : List Char) : Except NumeralFault Float :=
  let (negative, magnitude) := splitSign cs
  let word := String.ofList (magnitude.map lowerAscii)
  if word == "inf" || word == "infinity" then .ok (ofPattern (binary64.infinity negative))
  else if word == "nan" && magnitude.length == cs.length then .ok (ofPattern binary64.nan)
  else parseMagnitude negative magnitude

end Number

end PathWitness
