import PathWitness.Yaml.Character

/-!
# Positions in a Document

A document is read from left to right. What a piece of text means depends on
its line and its column, so a cursor knows both beside the text that is left.

A document is brought into view block by block, as far as its reader has to
look ahead. Characters that no document may contain are refused when they come
into view, so what follows the end of a document is not examined further than
the block in which the document ends.

The view starts at the place where it was last extended. A mark of byte order
at its start is not part of the text, and neither is the first character of
any line as long as such a mark starts the view.

## Main definitions

* `Cursor`: A place in a document.
* `Cursor.start`: The beginning of a document.
* `ReadM`: Reading from a place on.
* `need`: Brings characters into view.
* `peek`, `peekAt`: The characters that come next.
* `skip`, `skipBreak`, `readBreak`: Goes on by a character or a line break.
* `skipWhile`, `readWhile`: Goes on as long as characters satisfy a test.
-/

namespace PathWitness

namespace Yaml

/-- How many octets a block has at most. -/
def blockSize : Nat := 512

/-- A block with a number of characters, if all of them are allowed. -/
def blockOf (count : Nat) (allowed : Bool) : Option Nat :=
  if allowed then some count else none

/-- The blocks of a text, by their numbers of characters, where a block has
    been started that has some octets and characters. -/
def blocksFrom (octets count : Nat) (allowed : Bool) : List Char → List (Option Nat)
  | [] => if count = 0 then [] else [blockOf count allowed]
  | c :: rest =>
    if blockSize < octets + c.utf8Size then
      blockOf count allowed :: blocksFrom c.utf8Size 1 (isAllowed c) rest
    else blocksFrom (octets + c.utf8Size) (count + 1) (allowed && isAllowed c) rest

/-- Extends a view by blocks until it has as many characters as are needed. The
    end of the text counts as one. -/
def extendView (needed : Nat) : Nat → List (Option Nat) → Option (Nat × List (Option Nat))
  | inView, [] => some (inView + 1, [])
  | _, none :: _ => none
  | inView, some count :: rest =>
    if needed ≤ inView + count then some (inView + count, rest)
    else extendView needed (inView + count) rest

/-- A place in a document. -/
structure Cursor where
  /-- The text that is left. -/
  rest : List Char
  /-- The number of characters that are left. -/
  size : Nat
  /-- The number of characters before this place. -/
  index : Nat := 0
  /-- The line, counted from zero. -/
  line : Nat := 0
  /-- The column, counted from zero. -/
  column : Nat := 0
  /-- The number of characters in view from here on. -/
  inView : Nat := 0
  /-- The blocks that are not in view. -/
  blocks : List (Option Nat) := []
  /-- A mark of byte order starts the view. -/
  marked : Bool := false
  deriving Repr, DecidableEq

namespace Cursor

/-- The beginning of a document. A mark of byte order is not part of the text,
    and an empty text is an empty line. -/
def start (text : String) : Cursor :=
  let cs := if text.isEmpty then ['\n'] else text.toList
  let (octets, cs) :=
    if cs.head? == some byteOrderMark then (byteOrderMark.utf8Size, cs.drop 1) else (0, cs)
  { rest := cs, size := cs.length, blocks := blocksFrom octets 0 true cs }

/-- The character some places further on. -/
def charAt (p : Cursor) (i : Nat) : Char :=
  (p.rest.drop i).head?.getD endMark

/-- The place some characters further on. -/
def advance (p : Cursor) (n : Nat) : Cursor :=
  { p with
    rest := p.rest.drop n
    size := p.size - n
    index := p.index + n
    inView := p.inView - n }

/-- The place after one character that does not end a line. -/
def next (p : Cursor) : Cursor :=
  { p.advance 1 with column := p.column + 1 }

/-- The number of characters of the line break at a place. -/
def breakSize (p : Cursor) : Nat :=
  if p.charAt 0 == '\r' && p.charAt 1 == '\n' then 2 else 1

/-- The place after a line break. -/
def nextLine (p : Cursor) : Cursor :=
  { p.advance p.breakSize with line := p.line + 1, column := 0 }

/-- The place with at least so many characters in view. -/
def withView (p : Cursor) (needed : Nat) : Option Cursor :=
  if needed ≤ p.inView then some p
  else
    match extendView needed p.inView p.blocks with
    | some (inView, blocks) =>
      some { p with inView, blocks, marked := p.rest.head? == some byteOrderMark }
    | none => none

/-- A line starts here with one of the markers between documents. -/
def atMarker (p : Cursor) : Bool :=
  p.column == 0 && (p.rest.take 3 == ['-', '-', '-'] || p.rest.take 3 == ['.', '.', '.']) &&
    endsPiece (p.charAt 3)

end Cursor

/-- Reading from a place on, which fails if the text is malformed. -/
abbrev ReadM := StateT Cursor Option

/-- Brings so many characters into view. -/
def need (n : Nat) : ReadM Unit := do
  set (← (← get).withView n)

/-- The character some places further on. -/
def peekAt (i : Nat) : ReadM Char :=
  return (← get).charAt i

/-- The next character. -/
def peek : ReadM Char :=
  peekAt 0

/-- Goes on by one character that does not end a line. -/
def skip : ReadM Unit :=
  modify Cursor.next

/-- Goes on by one line break, if there is one. -/
def skipBreak : ReadM Unit := do
  if isBreak (← peek) then modify Cursor.nextLine

/-- Reads a line break. -/
def readBreak : ReadM (List Char) := do
  let c ← peek
  if isBreak c then
    modify Cursor.nextLine
    return [breakText c]
  else return []

/-- Reads characters as long as they satisfy a test, at most so many. -/
def readSome (test : Char → Bool) : Nat → List Char → ReadM (List Char)
  | 0, text => return text.reverse
  | n + 1, text => do
    let c ← peek
    if test c then
      skip
      need 1
      readSome test n (c :: text)
    else return text.reverse

/-- Reads characters as long as they satisfy a test. -/
def readWhile (test : Char → Bool) : ReadM (List Char) := do
  readSome test (← get).size []

/-- Goes on as long as characters satisfy a test. -/
def skipWhile (test : Char → Bool) : ReadM Unit := do
  let _ ← readWhile test

/-- Goes over blanks and a comment to the end of a line, where the line has to
    end, and over its break. -/
def skipRestOfLine : ReadM Unit := do
  need 1
  skipWhile isBlank
  if (← peek) == '#' then skipWhile (!endsLine ·)
  if !endsLine (← peek) then failure
  if isBreak (← peek) then
    need 2
    skipBreak

end Yaml

end PathWitness
