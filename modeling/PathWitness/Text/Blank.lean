import PathWitness.Text.Ranges

/-!
# White Space

The characters that are white space in any script, and trimming by them.

## Main definitions

* `isBlank`: A character is white space.
* `trim`: A text without white space at either end.
* `trimEndOf`: A text without given characters at its end.
-/

namespace PathWitness

namespace Text

/-- The code points at which being white space changes, ascending. -/
def blankRanges : List Nat :=
  [0x9, 0xe, 0x20, 0x21, 0x85, 0x86, 0xa0, 0xa1, 0x1680, 0x1681, 0x2000, 0x200b, 0x2028, 0x202a,
   0x202f, 0x2030, 0x205f, 0x2060, 0x3000, 0x3001]

/-- A character is white space. -/
def isBlank (c : Char) : Bool :=
  inRanges blankRanges c

/-- Drops characters from the end of a text as long as they satisfy `p`. -/
def dropEndWhile (p : Char → Bool) (cs : List Char) : List Char :=
  (cs.reverse.dropWhile p).reverse

/-- A text without white space at either end. -/
def trim (s : String) : String :=
  String.ofList (dropEndWhile isBlank (s.toList.dropWhile isBlank))

/-- A text without the given characters at its end. -/
def trimEndOf (marks : List Char) (cs : List Char) : List Char :=
  dropEndWhile marks.contains cs

end Text

end PathWitness
