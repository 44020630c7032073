import PathWitness.Term.Constants

/-!
# Seed Values

The values that are tried for a symbol. Conditions change their truth at the
constants they mention, so the seeds are those constants with their
neighbours, together with zero and one on either side of it. Small values come
first, since a reader prefers them.

A boolean has two values, and both are tried.

## Main definitions

* `Seed.distinct`: A list without repetition.
* `Seed.integers`, `Seed.floats`: The seeds of the number types.
* `Seed.values`: The values tried for a symbol of a type.
-/

namespace PathWitness

namespace Seed

/-- The members of a list that differ from all before them. -/
def distinct {α : Type} (same : α → α → Bool) : List α → List α
  | [] => []
  | a :: rest => a :: (distinct same rest).filter (!same a ·)

/-- An integer is a value of a type, and not wrapped to another one. -/
def fits (p : Prim) (i : Int) : Bool :=
  (Const.ofInt64 p (Int64.ofInt i)).toInt64.toInt == i

/-- A constant with its neighbours among the 64-bit integers. -/
def neighbours (i : Int) : List Int :=
  [i] ++ (if i < Number.greatestInt64 then [i + 1] else []) ++
    (if i > Number.leastInt64 then [i - 1] else [])

/-- The integers tried for a type, before any limit: by distance from zero,
    and in order of mention at the same distance. -/
def integers (p : Prim) (constants : List Const) : List Int :=
  let mentioned := [0, 1, -1] ++ constants.flatMap fun c => neighbours c.toInt64.toInt
  (distinct (· == ·) (mentioned.filter (fits p))).mergeSort fun a b => a.natAbs ≤ b.natAbs

/-- A constant with its neighbours among the floating-point numbers. -/
def floatNeighbours (x : Float) : List Float :=
  [x, x + 1, x - 1, x + 0.5, x - 0.5]

/-- The floating-point numbers tried, before any limit. The two zeros count as
    the same number. -/
def floats (constants : List Const) : List Float :=
  let mentioned := [0, 1, -1] ++ constants.flatMap fun c => floatNeighbours c.toFloat
  (distinct (· == ·) (mentioned.filter (!·.isNaN))).mergeSort fun a b => !(b.abs < a.abs)

/-- A limit that no list can be cut to. -/
structure NegativeLimit where
  /-- The limit. -/
  limit : Int
  deriving Repr, DecidableEq

/-- The wording of a negative limit. -/
def NegativeLimit.message (e : NegativeLimit) : String :=
  "runtime error: slice bounds out of range [:" ++ toString e.limit ++ "]"

/-- The values tried for a symbol of a type, at most as many as the limit
    says. Both booleans are always tried, and a limit that is not positive
    does not limit floating-point numbers. -/
def values (p : Prim) (constants : List Const) (limit : Int) : Except NegativeLimit (List Const) :=
  if p = .boolean then .ok [.boolean false, .boolean true]
  else if p.isFloating then
    let all := (floats constants).map (Const.ofFloat p)
    .ok (if 0 < limit then all.take limit.toNat else all)
  else if limit < 0 then .error ⟨limit⟩
  else .ok (((integers p constants).take limit.toNat).map fun i => .ofInt64 p (Int64.ofInt i))

end Seed

end PathWitness
