/-!
# Words Without Letter Case

Some words are recognised whatever the case of their letters. Two letters of
other alphabets count as letters of these words too, since they have them as
their counterparts in the other case: the long s and the sign for kelvin.

## Main definitions

* `foldCase`: A character without the difference of letter case.
* `sameWord`: A text is a word but for letter case.
-/

namespace PathWitness

namespace Text

/-- A character without the difference of letter case. -/
def foldCase (c : Char) : Char :=
  if c == '\u017f' then 's' else if c == '\u212a' then 'k' else c.toLower

/-- A text is a word but for letter case, where the word itself is made of
    lower-case letters of the basic alphabet and of marks. -/
def sameWord (s word : String) : Bool :=
  s.toList.map foldCase == word.toList

end Text

end PathWitness
