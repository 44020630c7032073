/-!
# Character Sets as Ranges

A set of characters written as the ascending list of code points at which
membership changes. The first code point opens a range, the second closes it
(and is itself outside), the third opens the next one, and so on; a character
is inside exactly when an odd number of changes lie at or below it.

## Main definitions

* `inRanges`: Membership in a set written that way.
-/

namespace PathWitness

namespace Text

/-- Membership in the set whose membership changes at the given code points. -/
def inRanges (changes : List Nat) (c : Char) : Bool :=
  (changes.takeWhile (· ≤ c.toNat)).length % 2 == 1

end Text

end PathWitness
