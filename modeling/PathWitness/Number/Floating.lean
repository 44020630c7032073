import PathWitness.Number.Power

/-!
# Floating-Point Numbers as Integers and Powers of Two

A finite floating-point number is an integer times a power of two. This
module reads that form off a bit pattern and writes it back, so that digits
and remainders can be computed in exact integer arithmetic.

Both widths share one description, a `Layout`: the number of stored fraction
bits and the number of exponent bits. Everything else (the least exponent, the
pattern of the infinities) follows from those two.

## Main definitions

* `Layout`: The shape of a floating-point format, with `binary32` and
  `binary64`.
* `Reading`: What a bit pattern denotes.
* `Layout.read`: The reading of a bit pattern.
* `Layout.write`: The bit pattern of a representable number.
* `Layout.round`, `Layout.roundFraction`: The bit pattern of the nearest
  representable number.
* `ofInt`, `ofFraction`, `narrow`, `widen`, `saturate`: Conversions between
  integers, fractions and the two widths.
* `remainder`: The exact remainder of a truncated division.
-/

namespace PathWitness

namespace Number

/-- The shape of a floating-point format. -/
structure Layout where
  /-- Stored bits of the significand, without the leading one. -/
  fractionBits : Nat
  /-- Bits of the biased exponent. -/
  exponentBits : Nat
  deriving Repr, DecidableEq

/-- The 32-bit format. -/
def binary32 : Layout := ⟨23, 8⟩

/-- The 64-bit format. -/
def binary64 : Layout := ⟨52, 11⟩

/-- The exponent of the least subnormal number. -/
def Layout.leastExponent (l : Layout) : Int :=
  2 - (pow2 (l.exponentBits - 1) : Nat) - l.fractionBits

/-- What a bit pattern denotes. -/
inductive Reading where
  /-- Not a number. -/
  | nan
  /-- One of the two infinities. -/
  | infinite (negative : Bool)
  /-- The number `±mantissa · 2 ^ exponent`; both zeros have mantissa 0. -/
  | finite (negative : Bool) (mantissa : Nat) (exponent : Int)
  deriving Repr, DecidableEq

/-- The number denoted by a bit pattern of the given layout. -/
def Layout.read (l : Layout) (bits : Nat) : Reading :=
  let fraction := bits % pow2 l.fractionBits
  let biased := bits / pow2 l.fractionBits % pow2 l.exponentBits
  let negative := bits / pow2 (l.fractionBits + l.exponentBits) % 2 == 1
  if biased == pow2 l.exponentBits - 1 then
    if fraction == 0 then .infinite negative else .nan
  else if biased == 0 then .finite negative fraction l.leastExponent
  else .finite negative (pow2 l.fractionBits + fraction) (l.leastExponent + (biased - 1 : Nat))

/-- Moves factors of two from the exponent offset into a short mantissa,
    until the mantissa is normal or the offset is used up. -/
def normalizeMantissa (fractionBits mantissa : Nat) : Nat → Nat × Nat
  | 0 => (mantissa, 0)
  | offset + 1 =>
    if mantissa < pow2 fractionBits then normalizeMantissa fractionBits (2 * mantissa) offset
    else (mantissa, offset + 1)

/-- The bit pattern of `±mantissa · 2 ^ (leastExponent + offset)`, for a
    mantissa that fits the layout. -/
def Layout.write (l : Layout) (negative : Bool) (mantissa offset : Nat) : Nat :=
  let (m, k) := normalizeMantissa l.fractionBits mantissa offset
  let sign := if negative then pow2 (l.fractionBits + l.exponentBits) else 0
  if m < pow2 l.fractionBits then sign + m
  else sign + (k + 1) * pow2 l.fractionBits + (m - pow2 l.fractionBits)

/-- The bit pattern of an infinity. -/
def Layout.infinity (l : Layout) (negative : Bool) : Nat :=
  (if negative then pow2 (l.fractionBits + l.exponentBits) else 0) +
    (pow2 l.exponentBits - 1) * pow2 l.fractionBits

/-- The bit pattern of a value that is not a number. -/
def Layout.nan (l : Layout) : Nat :=
  l.infinity false + pow2 (l.fractionBits - 1)

/-- A quotient by a power of two, rounded to nearest with ties to even. -/
def halfEvenShift (n shift : Nat) : Nat :=
  let quotient := n / pow2 shift
  let rest := 2 * (n % pow2 shift)
  if rest > pow2 shift || (rest == pow2 shift && quotient % 2 == 1) then quotient + 1 else quotient

/-- The bit pattern of the representable number nearest to
    `±mantissa · 2 ^ exponent`. Ties go to the even mantissa, and a magnitude
    beyond the largest finite number becomes infinite. -/
def Layout.round (l : Layout) (negative : Bool) (mantissa : Nat) (exponent : Int) : Nat :=
  if mantissa == 0 then l.write negative 0 0
  else
    let precision := l.fractionBits + 1
    let length := Nat.log2 mantissa + 1
    let target := max (exponent + length - precision) l.leastExponent
    let rounded :=
      if target ≤ exponent then mantissa * pow2 (exponent - target).toNat
      else halfEvenShift mantissa (target - exponent).toNat
    let offset := (target - l.leastExponent).toNat
    -- Rounding up may carry into one bit too many.
    let (m, k) :=
      if rounded == pow2 precision then (pow2 l.fractionBits, offset + 1) else (rounded, offset)
    if m ≥ pow2 l.fractionBits && k + 1 ≥ pow2 l.exponentBits - 1 then l.infinity negative
    else l.write negative m k

/-- The bit pattern of the representable number nearest to a fraction. The
    quotient is taken with two bits more than the format stores, and whatever
    is left over is kept as one last bit, so that no tie is mistaken. -/
def Layout.roundFraction (l : Layout) (negative : Bool) (num den : Nat) : Nat :=
  let shift : Int := (l.fractionBits + 3 : Nat) + (Nat.log2 den : Int) - (Nat.log2 num : Int)
  let scaledNum := num * pow2 shift.toNat
  let scaledDen := den * pow2 (-shift).toNat
  let rest := if scaledNum % scaledDen == 0 then 0 else 1
  l.round negative (2 * (scaledNum / scaledDen) + rest) (-shift - 1)

/-- The reading of a 64-bit number. -/
def readFloat (x : Float) : Reading :=
  binary64.read x.toBits.toNat

/-- The reading of a 32-bit number. -/
def readFloat32 (x : Float32) : Reading :=
  binary32.read x.toBits.toNat

/-- The 64-bit number with the given bit pattern. -/
def ofPattern (bits : Nat) : Float :=
  Float.ofBits (UInt64.ofNat bits)

/-- The 32-bit number with the given bit pattern. -/
def ofPattern32 (bits : Nat) : Float32 :=
  Float32.ofBits (UInt32.ofNat bits)

/-- The 64-bit number nearest to an integer. -/
def ofInt (n : Int) : Float :=
  ofPattern (binary64.round (n < 0) n.natAbs 0)

/-- The 64-bit number nearest to a fraction. -/
def ofFraction (negative : Bool) (num den : Nat) : Float :=
  ofPattern (binary64.roundFraction negative num den)

/-- The 32-bit number nearest to a 64-bit one. -/
def narrow (x : Float) : Float32 :=
  match readFloat x with
  | .nan => ofPattern32 binary32.nan
  | .infinite negative => ofPattern32 (binary32.infinity negative)
  | .finite negative m e => ofPattern32 (binary32.round negative m e)

/-- A 32-bit number at 64 bits, without loss. -/
def widen (x : Float32) : Float :=
  match readFloat32 x with
  | .nan => ofPattern binary64.nan
  | .infinite negative => ofPattern (binary64.infinity negative)
  | .finite negative m e => ofPattern (binary64.round negative m e)

/-- The integer a number is truncated to, toward zero. -/
def truncated (negative : Bool) (mantissa : Nat) (exponent : Int) : Int :=
  let magnitude : Int := (mantissa * pow2 exponent.toNat / pow2 (-exponent).toNat : Nat)
  if negative then -magnitude else magnitude

/-- Truncation toward zero into a range: what lies beyond an end becomes that
    end, and a value that is not a number becomes 0. -/
def saturate (least greatest : Int) (x : Float) : Int :=
  match readFloat x with
  | .nan => 0
  | .infinite negative => if negative then least else greatest
  | .finite negative m e => max least (min greatest (truncated negative m e))

/-- The remainder of the division of `x` by `y` whose quotient is truncated
    toward zero. It is exact and has the sign of `x`; there is none when `x`
    is infinite or `y` is zero. -/
def remainder (x y : Float) : Float :=
  match readFloat x, readFloat y with
  | .finite negative m e, .finite _ n f =>
    if n == 0 then ofPattern binary64.nan
    else
      let least := min e f
      let rest := m * pow2 (e - least).toNat % (n * pow2 (f - least).toNat)
      ofPattern (binary64.write negative rest (least - binary64.leastExponent).toNat)
  | .finite .., .infinite _ => x
  | _, _ => ofPattern binary64.nan

end Number

end PathWitness
