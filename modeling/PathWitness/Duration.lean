import PathWitness.Number.Numeral

/-!
# Durations

A span of time as a count of nanoseconds, read from a text such as `1h30m` or
`1.5s`: an optional sign and one or more decimal numbers, each with a unit.
The whole part of a number is exact; a fraction is scaled to its unit in
floating-point arithmetic and truncated.

## Main definitions

* `Duration.unit?`: The units of time.
* `Duration.parse?`: Reads a span of time.
-/

namespace PathWitness

namespace Duration

/-- The nanoseconds in a unit of time. -/
def unit? : String → Option Nat
  | "ns" => some 1
  | "us" | "µs" | "μs" => some 1000
  | "ms" => some 1000000
  | "s" => some 1000000000
  | "m" => some 60000000000
  | "h" => some 3600000000000
  | _ => none

/-- No part of a span may be larger than this. -/
def limit : Nat := Number.pow2 63

/-- The whole part of a number, unless it is too large. -/
def whole? (digits : List Char) : Option Nat :=
  match Number.readDigits 10 0 digits with
  | some n => if n ≤ limit then some n else none
  | none => none

/-- The fraction of a number as digits that count and the power of ten they
    are divided by. Digits beyond the precision of a word do not count. The
    power grows by floating-point steps, so it is exact up to 22 digits. -/
def fraction : Nat × Float → List Char → Nat × Float
  | acc, [] => acc
  | (x, scale), c :: rest =>
    if x > (limit - 1) / 10 then (x, scale)
    else
      let y := x * 10 + (Number.digitValue? c).getD 0
      if y > limit then (x, scale) else fraction (y, scale * 10) rest

/-- A fraction of a unit in nanoseconds, truncated. -/
def scaleFraction (f : Nat) (scale : Float) (unit : Nat) : Nat :=
  let x := Number.ofInt f * (Number.ofInt unit / scale)
  (Number.saturate 0 limit x).toNat

/-- A character that a unit ends before. -/
def startsNumber (c : Char) : Bool :=
  c == '.' || Number.isDigit c

/-- One number with its unit, in nanoseconds, and the rest of the text. -/
def parseItem? (cs : List Char) : Option (Nat × List Char) := do
  let digits := cs.takeWhile Number.isDigit
  let v ← whole? digits
  let afterWhole := cs.drop digits.length
  let (places, afterNumber) :=
    match afterWhole with
    | '.' :: rest =>
      let places := rest.takeWhile Number.isDigit
      (places, rest.drop places.length)
    | rest => ([], rest)
  if digits.isEmpty && places.isEmpty then none
  let name := afterNumber.takeWhile (!startsNumber ·)
  let unit ← unit? (String.ofList name)
  if v > limit / unit then none
  let (f, scale) := fraction (0, 1) places
  let total := v * unit + (if f > 0 then scaleFraction f scale unit else 0)
  if total > limit then none
  return (total, afterNumber.drop name.length)

/-- The sum of numbers with units. The sum is kept in a 64-bit word. The first
    argument bounds the number of items, each of which takes at least one
    character. -/
def sumItems : Nat → Nat → List Char → Option Nat
  | _, d, [] => some d
  | 0, _, _ => none
  | n + 1, d, cs =>
    match parseItem? cs with
    | none => none
    | some (v, rest) =>
      let d := (d + v) % Number.pow2 64
      if d > limit then none else sumItems n d rest

/-- Reads a span of time, in nanoseconds. -/
def parse? (s : String) : Option Int :=
  let (negative, cs) := Number.splitSign s.toList
  if cs == ['0'] then some 0
  else if cs.isEmpty then none
  else
    match sumItems cs.length 0 cs with
    | none => none
    | some d =>
      if negative then some (-d) else if d < limit then some d else none

end Duration

end PathWitness
