/-!
# Powers and Ranges

## Main definitions

* `pow2`, `pow10`: Powers of two and of ten.
* `leastInt32`, `greatestInt32`, `leastInt64`, `greatestInt64`: The ends of the
  ranges of machine integers.
-/

namespace PathWitness

namespace Number

/-- A power of two. -/
def pow2 (k : Nat) : Nat := Nat.pow 2 k

/-- A power of ten. -/
def pow10 (k : Nat) : Nat := Nat.pow 10 k

/-- The least 32-bit integer. -/
def leastInt32 : Int := -2147483648

/-- The greatest 32-bit integer. -/
def greatestInt32 : Int := 2147483647

/-- The least 64-bit integer. -/
def leastInt64 : Int := -9223372036854775808

/-- The greatest 64-bit integer. -/
def greatestInt64 : Int := 9223372036854775807

end Number

end PathWitness
