import PathWitness.Number.Numeral
import PathWitness.Yaml.Event

/-!
# What Scalars Stand For

A plain scalar that looks like a number, a truth value or the word for nothing
stands for it; a quoted scalar is always a text. A tag says what a scalar has to
stand for, whether it is plain or not.

## Main definitions

* `Meaning`: What a scalar stands for.
* `plainMeaning`: What a text stands for by how it looks.
* `Scalar.meaning?`: What a scalar stands for.
-/

namespace PathWitness

namespace Yaml

/-- What a scalar stands for. -/
inductive Meaning where
  /-- Nothing. -/
  | null
  /-- A truth value. -/
  | flag (value : Bool)
  /-- An integer of at most 64 bits, with a sign or without. -/
  | integer (value : Int)
  /-- A floating-point number. -/
  | floating (value : Float)
  /-- Its text. -/
  | text
  deriving Repr

/-- A word for nothing. -/
def isNull (s : String) : Bool :=
  ["", "~", "null", "Null", "NULL"].contains s

/-- The truth value that a word stands for. -/
def truthValue? (s : String) : Option Bool :=
  if ["y", "Y", "yes", "Yes", "YES", "true", "True", "TRUE", "on", "On", "ON"].contains s then
    some true
  else if ["n", "N", "no", "No", "NO", "false", "False", "FALSE", "off", "Off", "OFF"].contains s
  then some false
  else none

/-- The floating-point number that a word stands for. -/
def floatingWord? (s : String) : Option Float :=
  if [".inf", ".Inf", ".INF", "+.inf", "+.Inf", "+.INF"].contains s then
    some (Number.ofPattern (Number.binary64.infinity false))
  else if ["-.inf", "-.Inf", "-.INF"].contains s then
    some (Number.ofPattern (Number.binary64.infinity true))
  else if [".nan", ".NaN", ".NAN"].contains s then some (Number.ofPattern Number.binary64.nan)
  else none

/-- Digits with at most one point among them and at least one digit, and then
    possibly an exponent. -/
def looksFloating (cs : List Char) : Bool :=
  let (_, cs) := Number.splitSign cs
  let whole := cs.takeWhile Number.isDigit
  let (point, fraction, rest) :=
    match cs.dropWhile Number.isDigit with
    | '.' :: rest => (true, rest.takeWhile Number.isDigit, rest.dropWhile Number.isDigit)
    | rest => (false, [], rest)
  let exponentFits :=
    match rest with
    | [] => true
    | c :: rest =>
      let digits := (Number.splitSign rest).2
      (c == 'e' || c == 'E') && !digits.isEmpty && digits.all Number.isDigit
  (!whole.isEmpty || (point && !fraction.isEmpty)) && exponentFits

/-- An integer if it has at most 64 bits. -/
def fitting? (negative : Bool) (n : Nat) : Option Int :=
  if negative then if n ≤ Number.pow2 63 then some (-n) else none
  else if n < Number.pow2 64 then some n else none

/-- The integer that digits stand for. Binary digits may have a sign behind the
    mark of their base. -/
def integer? (cs : List Char) : Option Int :=
  let (negative, magnitude) := Number.splitSign cs
  match Number.parseNatural magnitude with
  | some n => if cs.head? == some '+' && Number.pow2 63 ≤ n then none else fitting? negative n
  | none =>
    match cs with
    | '0' :: 'b' :: rest => binary? rest
    | _ => none
where
  /-- The integer that binary digits with a sign stand for. -/
  binary? (cs : List Char) : Option Int :=
    let (negative, digits) := Number.splitSign cs
    if digits.isEmpty then none
    else
      match Number.readDigits 2 0 digits with
      | some n => if !negative && Number.pow2 63 ≤ n then none else fitting? negative n
      | none => none

/-- The floating-point number that a numeral stands for. -/
def floating? (cs : List Char) : Option Float :=
  match Number.parseFloating cs with
  | .ok x => some x
  | .error _ => none

/-- What a text stands for that starts with a digit or a sign. Underscores
    between the digits do not count. -/
def numberMeaning (cs : List Char) : Meaning :=
  let digits := cs.filter (· != '_')
  match integer? digits with
  | some i => .integer i
  | none =>
    if looksFloating digits then
      match floating? digits with
      | some x => .floating x
      | none => .text
    else .text

/-- What a text stands for by how it looks. -/
def plainMeaning (s : String) : Meaning :=
  if isNull s then .null
  else
    match truthValue? s, floatingWord? s with
    | some b, _ => .flag b
    | none, some x => .floating x
    | none, none =>
      match s.toList with
      | [] => .null
      | c :: rest =>
        if c == '.' then
          match floating? (c :: rest) with
          | some x => .floating x
          | none => .text
        else if Number.isDigit c || c == '+' || c == '-' then numberMeaning (c :: rest)
        else .text

/-- The beginning of the tags of the language. -/
def standardTag (name : String) : String :=
  "tag:yaml.org,2002:" ++ name

/-- What a text stands for whose tag says that it is of a standard kind. An
    integer may stand for a floating-point number. -/
def taggedMeaning? (tag : String) (m : Meaning) : Option Meaning :=
  match m with
  | .null => if tag == standardTag "null" then some m else none
  | .flag _ => if tag == standardTag "bool" then some m else none
  | .floating _ => if tag == standardTag "float" then some m else none
  | .integer i =>
    if tag == standardTag "int" then some m
    else if tag == standardTag "float" && i < Number.pow2 63 then some (.floating (Number.ofInt i))
    else none
  | .text => none

/-- What a scalar stands for, unless its tag says something else. A text with a
    tag of its own stands for itself. -/
def Scalar.meaning? (s : Scalar) : Option Meaning :=
  if s.tag.isEmpty then some (if s.plain then plainMeaning s.text else .text)
  else if ["bool", "int", "float", "null", "timestamp"].any (standardTag · == s.tag) then
    taggedMeaning? s.tag (plainMeaning s.text)
  else some .text

end Yaml

end PathWitness
