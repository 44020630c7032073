import PathWitness.Number.Floating

/-!
# Shortest Decimals

The decimal with the fewest digits that reads back as a given floating-point
number.

A finite number `m · 2 ^ q` stands for every real that rounds to it: an
interval around it that reaches half a unit up and half a unit down, or a
quarter down where the numbers below are twice as dense. The ends belong to
the interval when `m` is even. For one digit, two digits and so on, the two
neighbours of the number on that decimal grid are tested against the
interval; the first grid with a hit wins, the nearer of two hits is taken, and
an exact tie goes to the even one. Every step is exact integer arithmetic.

## Main definitions

* `Decimal`: A natural number times a power of ten.
* `shortest`: The shortest decimal of a positive floating-point number.
* `Decimal.general`: A decimal in positional or scientific form.
-/

namespace PathWitness

namespace Number

/-- The value `digits · 10 ^ exponent`. -/
structure Decimal where
  /-- The digits, read as one natural number. -/
  digits : Nat
  /-- The power of ten the digits are multiplied by. -/
  exponent : Int
  deriving Repr, DecidableEq

/-- A positive fraction, for exact comparisons. -/
structure Fraction where
  /-- The numerator. -/
  num : Nat
  /-- The denominator. -/
  den : Nat
  deriving Repr, DecidableEq

/-- The fraction `n · 2 ^ e`. -/
def Fraction.binary (n : Nat) (e : Int) : Fraction :=
  match e with
  | .ofNat k => ⟨n * pow2 k, 1⟩
  | .negSucc k => ⟨n, pow2 (k + 1)⟩

/-- The fraction `n · 10 ^ e`. -/
def Fraction.decimal (n : Nat) (e : Int) : Fraction :=
  match e with
  | .ofNat k => ⟨n * pow10 k, 1⟩
  | .negSucc k => ⟨n, pow10 (k + 1)⟩

/-- Comparison of two fractions. -/
def Fraction.le (a b : Fraction) : Bool :=
  a.num * b.den ≤ b.num * a.den

/-- Strict comparison of two fractions. -/
def Fraction.lt (a b : Fraction) : Bool :=
  a.num * b.den < b.num * a.den

/-- The number of decimal digits of a natural number. -/
def digitCount (n : Nat) : Nat :=
  (Nat.toDigits 10 n).length

/-- The exponent of the leading decimal digit of a positive fraction. -/
def Fraction.leadingExponent (a : Fraction) : Int :=
  let estimate : Int := (digitCount a.num : Int) - (digitCount a.den : Int)
  if (Fraction.decimal 1 estimate).le a then estimate else estimate - 1

/-- The rounding interval of a floating-point number: the reals that round
    to it. -/
structure RoundingInterval where
  /-- The lower end. -/
  lower : Fraction
  /-- The number itself. -/
  middle : Fraction
  /-- The upper end. -/
  upper : Fraction
  /-- The two ends round to the number as well. -/
  closed : Bool

/-- The rounding interval of `mantissa · 2 ^ exponent`. The gap below a power
    of two is half the gap above it, unless the number is subnormal or the
    least normal one. -/
def RoundingInterval.of (l : Layout) (mantissa : Nat) (exponent : Int) : RoundingInterval :=
  let narrowBelow := mantissa == pow2 l.fractionBits && exponent > l.leastExponent
  { lower := .binary (4 * mantissa - if narrowBelow then 1 else 2) (exponent - 2)
    middle := .binary (4 * mantissa) (exponent - 2)
    upper := .binary (4 * mantissa + 2) (exponent - 2)
    closed := mantissa % 2 == 0 }

/-- A fraction lies in a rounding interval. -/
def RoundingInterval.contains (i : RoundingInterval) (a : Fraction) : Bool :=
  if i.closed then i.lower.le a && a.le i.upper else i.lower.lt a && a.lt i.upper

/-- The member of the interval on the grid of multiples of `10 ^ grid` that is
    nearest to the number, if the number has a neighbour there at all. -/
def RoundingInterval.nearestOnGrid (i : RoundingInterval) (grid : Int) : Option Decimal :=
  let scaled : Fraction :=
    match grid with
    | .ofNat k => ⟨i.middle.num, i.middle.den * pow10 k⟩
    | .negSucc k => ⟨i.middle.num * pow10 (k + 1), i.middle.den⟩
  let below := scaled.num / scaled.den
  let rest := 2 * (scaled.num % scaled.den)
  let inside := fun n => i.contains (.decimal n grid)
  match inside below, inside (below + 1) with
  | true, true =>
    if rest < scaled.den || (rest == scaled.den && below % 2 == 0) then some ⟨below, grid⟩
    else some ⟨below + 1, grid⟩
  | true, false => some ⟨below, grid⟩
  | false, true => some ⟨below + 1, grid⟩
  | false, false => none

/-- Tries grids of one more digit each until one holds a member of the
    interval. -/
def RoundingInterval.firstGrid (i : RoundingInterval) : Nat → Int → Option Decimal
  | 0, _ => none
  | tries + 1, grid =>
    match i.nearestOnGrid grid with
    | some d => some d
    | none => i.firstGrid tries (grid - 1)

/-- Moves trailing zeros of the digits into the exponent. -/
def Decimal.trimZeros : Nat → Decimal → Decimal
  | 0, d => d
  | fuel + 1, d =>
    if d.digits % 10 == 0 && d.digits != 0 then trimZeros fuel ⟨d.digits / 10, d.exponent + 1⟩
    else d

/-- The shortest decimal that reads back as `mantissa · 2 ^ exponent` in the
    given layout. Seventeen digits identify every number of either width, so
    the search always succeeds. -/
def shortest (l : Layout) (mantissa : Nat) (exponent : Int) : Decimal :=
  let interval := RoundingInterval.of l mantissa exponent
  match interval.firstGrid 17 interval.middle.leadingExponent with
  | some d => d.trimZeros 17
  | none => ⟨mantissa, exponent⟩

/-- The exponent mark of scientific form: a sign and at least two digits. -/
def exponentMark (e : Int) : List Char :=
  let digits := Nat.toDigits 10 e.natAbs
  'e' :: (if e < 0 then '-' else '+') :: List.replicate (2 - digits.length) '0' ++ digits

/-- A decimal in positional form when its leading digit lies between the
    fifth place after the point and the sixth before it, in scientific form
    otherwise. -/
def Decimal.general (d : Decimal) : List Char :=
  let digits := Nat.toDigits 10 d.digits
  let count := digits.length
  let point : Int := count + d.exponent
  if d.digits == 0 then ['0']
  else if point - 1 < -4 || point - 1 ≥ 6 then
    match digits with
    | [] => []
    | [c] => c :: exponentMark (point - 1)
    | c :: rest => c :: '.' :: rest ++ exponentMark (point - 1)
  else if point ≤ 0 then '0' :: '.' :: List.replicate (-point).toNat '0' ++ digits
  else if point ≥ count then digits ++ List.replicate (point - count).toNat '0'
  else digits.take point.toNat ++ '.' :: digits.drop point.toNat

/-- The text of a finite floating-point number: its shortest decimal in
    general form, after a minus sign if it is negative (zero included). -/
def finiteText (l : Layout) (negative : Bool) (mantissa : Nat) (exponent : Int) : List Char :=
  let magnitude :=
    if mantissa == 0 then ['0'] else (shortest l mantissa exponent).general
  if negative then '-' :: magnitude else magnitude

end Number

end PathWitness
