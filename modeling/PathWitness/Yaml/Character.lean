/-!
# Characters of Documents

Which characters a document may contain, and what they are good for. A
document is over where the null character stands, which is not allowed inside
of one, so that the end of a document needs no case of its own.

## Main definitions

* `isAllowed`: Characters that a document may contain.
* `isBreak`, `isBlank`, `isGap`: White space.
* `breakText`: What a line break counts as inside a text.
* `startsPlain`, `endsPlain`: Where a plain text starts and ends.
-/

namespace PathWitness

namespace Yaml

/-- What stands behind the last character of a document. -/
def endMark : Char := '\x00'

/-- The mark that may stand at the beginning of a text. -/
def byteOrderMark : Char := '\ufeff'

/-- Characters that a document may contain. -/
def isAllowed (c : Char) : Bool :=
  let n := c.toNat
  n == 0x9 || n == 0xa || n == 0xd || (0x20 ≤ n && n ≤ 0x7e) || n == 0x85 ||
    (0xa0 ≤ n && n ≤ 0xfffd) || 0x10000 ≤ n

/-- A character that ends a line. -/
def isBreak (c : Char) : Bool :=
  c == '\n' || c == '\r' || c == '\u0085' || c == '\u2028' || c == '\u2029'

/-- A line ends here, or the document does. -/
def endsLine (c : Char) : Bool :=
  isBreak c || c == endMark

/-- A space or a tab. -/
def isBlank (c : Char) : Bool :=
  c == ' ' || c == '\t'

/-- White space. -/
def isGap (c : Char) : Bool :=
  isBlank c || isBreak c

/-- A piece of text ends here. -/
def endsPiece (c : Char) : Bool :=
  isBlank c || endsLine c

/-- What a line break counts as inside a text. Separators of lines and of
    paragraphs stay what they are. -/
def breakText (c : Char) : Char :=
  if c == '\u2028' || c == '\u2029' then c else '\n'

/-- A decimal digit. -/
def isDigit (c : Char) : Bool :=
  '0' ≤ c && c ≤ '9'

/-- Characters of names. -/
def isNameChar (c : Char) : Bool :=
  isDigit c || ('a' ≤ c && c ≤ 'z') || ('A' ≤ c && c ≤ 'Z') || c == '_' || c == '-'

/-- Characters of identifiers of tags. -/
def isTagChar (c : Char) : Bool :=
  isNameChar c || ";/?:@&=+$,.!~*'()[]%".toList.contains c

/-- Characters with a meaning of their own, which cannot start a plain text. -/
def isIndicator (c : Char) : Bool :=
  "-?:,[]\x7b\x7d#&*!|>'\"%@\x60".toList.contains c

/-- A plain text may start with this character, which the next one follows.
    Between brackets `?` and `:` have a meaning wherever they stand. -/
def startsPlain (flow : Bool) (c next : Char) : Bool :=
  match c with
  | '-' => !isBlank next
  | '?' | ':' => !flow && !endsPiece next
  | _ => !endsPiece c && !isIndicator c

/-- A plain text ends before this character, which the next one follows. -/
def endsPlain (flow : Bool) (c next : Char) : Bool :=
  (c == ':' && endsPiece next) || (flow && ",?[]\x7b\x7d".toList.contains c)

end Yaml

end PathWitness
