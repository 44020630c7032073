import PathWitness.Number.Numeral
import PathWitness.Yaml.Cursor

/-!
# Reading Scalars

A scalar is a piece of text: plain, between quotation marks, or a block of
lines. A plain or quoted scalar that goes on over several lines is folded: one
line break counts as a space, and of several line breaks all but one are kept.
A block keeps its lines, or folds those that are not indented further.

## Main definitions

* `Gap`: White space inside a scalar.
* `readPlain`: Reads a plain scalar.
* `readQuoted`: Reads a scalar between quotation marks.
* `readBlock`: Reads a block of lines.
-/

namespace PathWitness

namespace Yaml

/-- White space inside a scalar. -/
structure Gap where
  /-- Blanks before the first line break, the latest first. -/
  blanks : List Char := []
  /-- There is a line break among it, which may have been escaped. -/
  broken : Bool := false
  /-- The first line break, if it was not escaped. -/
  first : List Char := []
  /-- The other line breaks, in their order. -/
  more : List Char := []

/-- What white space counts as when line breaks are folded. -/
def foldBreaks (first more : List Char) : List Char :=
  if first == ['\n'] then if more.isEmpty then [' '] else more
  else first ++ more

/-- What white space counts as inside a scalar. -/
def Gap.text (g : Gap) : List Char :=
  if g.broken then foldBreaks g.first g.more else g.blanks.reverse

/-- Reads white space. No tab may stand before the given column of a line that
    goes on with the scalar. -/
def readGapFrom (column : Int) : Nat → Gap → ReadM Gap
  | 0, g => return g
  | n + 1, g => do
    let c ← peek
    if isBlank c then
      if g.broken && c == '\t' && (← get).column < column then failure
      skip
      need 1
      readGapFrom column n (if g.broken then g else { g with blanks := c :: g.blanks })
    else if isBreak c then
      need 2
      let text ← readBreak
      need 1
      readGapFrom column n (if g.broken then { g with more := g.more ++ text }
        else { broken := true, first := text })
    else return g

/-- Reads white space. -/
def readGap (column : Int) (g : Gap) : ReadM Gap := do
  readGapFrom column (← get).size g

/-- Reads a piece of a plain scalar that has no white space in it. What has
    been read is kept with the latest character first. -/
def readPlainPiece (flow : Bool) : Nat → List Char → Gap → ReadM (List Char × Gap)
  | 0, text, g => return (text, g)
  | n + 1, text, g => do
    let c ← peek
    if endsPiece c || endsPlain flow c (← peekAt 1) then return (text, g)
    else
      skip
      need 2
      readPlainPiece flow n (c :: (g.text.reverse ++ text)) {}

/-- Reads the pieces of a plain scalar. The lines it goes on over start at the
    given column or behind it, unless it is between brackets. -/
def readPlainFrom (flow : Bool) (column : Int) :
    Nat → List Char → Gap → ReadM (List Char × Gap)
  | 0, text, g => return (text, g)
  | n + 1, text, g => do
    need 4
    if (← get).atMarker || (← peek) == '#' then return (text, g)
    else
      let (text, g) ← readPlainPiece flow (← get).size text g
      if !isGap (← peek) then return (text, g)
      else
        need 1
        let g ← readGap column g
        if !flow && (← get).column < column then return (text, g)
        else readPlainFrom flow column n text g

/-- Reads a plain scalar that is indented more than `indent`, and tells whether
    a line ended behind it. -/
def readPlain (flow : Bool) (indent : Int) : ReadM (String × Bool) := do
  let (text, g) ← readPlainFrom flow (indent + 1) (← get).size [] {}
  return (String.ofList text.reverse, g.broken)

/-- The character that an escape stands for, if it takes no digits. -/
def escaped? : Char → Option Char
  | '0' => some '\x00'
  | 'a' => some '\x07'
  | 'b' => some '\x08'
  | 't' | '\t' => some '\t'
  | 'n' => some '\n'
  | 'v' => some '\x0b'
  | 'f' => some '\x0c'
  | 'r' => some '\r'
  | 'e' => some '\x1b'
  | ' ' => some ' '
  | '"' => some '"'
  | '\'' => some '\''
  | '\\' => some '\\'
  | 'N' => some '\u0085'
  | '_' => some '\u00a0'
  | 'L' => some '\u2028'
  | 'P' => some '\u2029'
  | _ => none

/-- How many digits an escape takes. -/
def escapeDigits? : Char → Option Nat
  | 'x' => some 2
  | 'u' => some 4
  | 'U' => some 8
  | _ => none

/-- The value of a hexadecimal digit. -/
def hexValue? (c : Char) : Option Nat :=
  if Number.isHexDigit c then Number.digitValue? c else none

/-- Reads a number of hexadecimal digits and appends them to a value. -/
def readHex : Nat → Nat → ReadM Nat
  | 0, value => return value
  | n + 1, value => do
    let d ← hexValue? (← peek)
    skip
    readHex n (value * 16 + d)

/-- Reads an escape. -/
def readEscape : ReadM Char := do
  let c ← peekAt 1
  skip
  skip
  match escapeDigits? c with
  | some n =>
    need n
    let value ← readHex n 0
    if value.isValidChar then return Char.ofNat value else failure
  | none => escaped? c

/-- Reads a piece of a quoted scalar that has no white space in it, and tells
    whether an escaped line break ends it. What has been read is kept with the
    latest character first. -/
def readQuotedPiece (mark : Char) : Nat → List Char → ReadM (List Char × Bool)
  | 0, text => return (text, false)
  | n + 1, text => do
    let c ← peek
    if endsPiece c then return (text, false)
    else if c == mark then
      if mark == '\'' && (← peekAt 1) == '\'' then
        skip
        skip
        need 2
        readQuotedPiece mark n ('\'' :: text)
      else return (text, false)
    else if mark == '"' && c == '\\' then
      if isBreak (← peekAt 1) then
        need 3
        skip
        skipBreak
        return (text, true)
      else
        let e ← readEscape
        need 2
        readQuotedPiece mark n (e :: text)
    else
      skip
      need 2
      readQuotedPiece mark n (c :: text)

/-- Reads the pieces of a quoted scalar. -/
def readQuotedFrom (mark : Char) : Nat → List Char → ReadM (List Char)
  | 0, _ => failure
  | n + 1, text => do
    need 4
    if (← get).atMarker || (← peek) == endMark then failure
    let (text, escaped) ← readQuotedPiece mark (← get).size text
    need 1
    if (← peek) == mark then return text
    else
      let g ← readGap 0 { broken := escaped }
      readQuotedFrom mark n (g.text.reverse ++ text)

/-- Reads a scalar between quotation marks. -/
def readQuoted : ReadM String := do
  let mark ← peek
  skip
  let text ← readQuotedFrom mark ((← get).size + 1) []
  skip
  return String.ofList text.reverse

/-- What becomes of the line breaks at the end of a block. -/
inductive Chomping where
  /-- All are dropped. -/
  | strip
  /-- The first is kept. -/
  | clip
  /-- All are kept. -/
  | keep
  deriving Repr, DecidableEq

/-- Reads the sign that says how a block ends, if it is written. -/
def readChomping : ReadM (Option Chomping) := do
  match ← peek with
  | '+' =>
    skip
    return some .keep
  | '-' =>
    skip
    return some .strip
  | _ => return none

/-- Reads the digit that says how far a block is indented, if it is written. -/
def readIndentation : ReadM Nat := do
  let c ← peek
  if c == '0' then failure
  else if isDigit c then
    skip
    return c.toNat - '0'.toNat
  else return 0

/-- Reads what is written behind the mark of a block. -/
def readBlockHeader : ReadM (Chomping × Nat) := do
  skip
  need 1
  match ← readChomping with
  | some chomping =>
    need 1
    let increment ← readIndentation
    return (chomping, increment)
  | none =>
    let increment ← readIndentation
    if increment = 0 then return (.clip, 0)
    else
      need 1
      return ((← readChomping).getD .clip, increment)

/-- Reads indentation and empty lines inside a block, whose column is zero as
    long as it is not known. Gives the line breaks and the largest column that
    was reached. -/
def readBlockBreaks (column : Nat) : Nat → Nat → List Char → ReadM (List Char × Nat)
  | 0, reached, breaks => return (breaks, reached)
  | n + 1, reached, breaks => do
    need 1
    let p ← get
    let room := if column = 0 then p.size else column - p.column
    let _ ← readSome (· == ' ') room []
    let reached := max reached (← get).column
    if (column = 0 || (← get).column < column) && (← peek) == '\t' then failure
    if isBreak (← peek) then
      need 2
      let text ← readBreak
      readBlockBreaks column n reached (breaks ++ text)
    else return (breaks, reached)

/-- A block of lines that is being read. -/
structure BlockText where
  /-- The text so far, the latest character first. -/
  text : List Char := []
  /-- The break of the last line. -/
  first : List Char := []
  /-- The breaks of empty lines after it. -/
  more : List Char := []
  /-- The last line starts with a blank. -/
  indented : Bool := false

/-- What stands between the last line of a block and a line that starts with a
    blank or does not. -/
def BlockText.gap (b : BlockText) (folded indented : Bool) : List Char :=
  if folded && !b.indented && !indented && b.first == ['\n'] then foldBreaks b.first b.more
  else b.first ++ b.more

/-- Reads the lines of a block that start in a column. -/
def readBlockLines (folded : Bool) (column : Nat) : Nat → BlockText → ReadM BlockText
  | 0, b => return b
  | n + 1, b => do
    let c ← peek
    if (← get).column != column || c == endMark then return b
    else
      let line ← readWhile (!endsLine ·)
      need 2
      let first ← readBreak
      let (more, _) ← readBlockBreaks column ((← get).size + 1) 0 []
      readBlockLines folded column n
        { text := line.reverse ++ ((b.gap folded (isBlank c)).reverse ++ b.text)
          first, more, indented := isBlank c }

/-- Reads a block of lines. Its column is given beside its mark, or else the
    largest that is reached before its first line, which is indented more than
    `indent`. -/
def readBlock (folded : Bool) (indent : Int) : ReadM String := do
  let (chomping, increment) ← readBlockHeader
  skipRestOfLine
  let given := if increment = 0 then 0 else (max indent 0).toNat + increment
  let (more, reached) ← readBlockBreaks given ((← get).size + 1) 0 []
  let column := if given = 0 then max (max reached (indent + 1).toNat) 1 else given
  need 1
  let b ← readBlockLines folded column ((← get).size + 1) { more }
  let tail := match chomping with
    | .strip => []
    | .clip => b.first
    | .keep => b.first ++ b.more
  return String.ofList (b.text.reverse ++ tail)

end Yaml

end PathWitness
