/-!
# Replacing Text

## Main definitions

* `replaceChars`: Replaces every occurrence of a pattern.
* `replaceAll`: The same for strings.
-/

namespace PathWitness

namespace Text

/-- Replaces every occurrence of a pattern, from left to right, where the first
    `skip` characters belong to an occurrence that was replaced already. -/
def replaceChars (pattern replacement : List Char) : Nat → List Char → List Char
  | _, [] => []
  | skip + 1, _ :: rest => replaceChars pattern replacement skip rest
  | 0, c :: rest =>
    if pattern.isPrefixOf (c :: rest) then
      replacement ++ replaceChars pattern replacement (pattern.length - 1) rest
    else c :: replaceChars pattern replacement 0 rest

/-- Replaces every occurrence of a pattern that is not empty. -/
def replaceAll (s pattern replacement : String) : String :=
  String.ofList (replaceChars pattern.toList replacement.toList 0 s.toList)

end Text

end PathWitness
