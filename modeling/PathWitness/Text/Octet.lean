import PathWitness.Text.Quoted

/-!
# Octets of Characters

A character beyond ASCII is encoded by several octets. Some texts are cut
between octets rather than between characters, and some messages name an octet
rather than a whole character.

## Main definitions

* `octets`: The encoded form of a character.
* `leadingOctet`: The first octet of a character's encoded form.
* `Piece`: A character, or an octet that is left of one.
* `cut`: The beginning of a text, by its number of octets.
* `shown`, `quotedPieces`: A text with octets in it as it is shown.
-/

namespace PathWitness

namespace Text

/-- The encoded form of a character. -/
def octets (c : Char) : List Nat :=
  let n := c.toNat
  let tail := fun (shift : Nat) => 0x80 + n / shift % 0x40
  if n < 0x80 then [n]
  else if n < 0x800 then [0xc0 + n / 0x40, tail 1]
  else if n < 0x10000 then [0xe0 + n / 0x1000, tail 0x40, tail 1]
  else [0xf0 + n / 0x40000, tail 0x1000, tail 0x40, tail 1]

/-- The first octet of a character's encoded form, as a character. -/
def leadingOctet (c : Char) : Char :=
  Char.ofNat ((octets c).head?.getD 0)

/-- A character, or an octet that is left of one. -/
inductive Piece where
  /-- A whole character. -/
  | char (c : Char)
  /-- An octet that is not a character by itself. -/
  | octet (value : Nat)
  deriving Repr, DecidableEq

namespace Piece

/-- What stands for an octet where only characters can stand. -/
def replacement : Char := '\ufffd'

/-- A piece where only characters can stand. -/
def shownChar : Piece → Char
  | char c => c
  | octet _ => replacement

/-- A piece as it is written between double quotes. -/
def encoded : Piece → List Char
  | char c => encodeChar '"' c
  | octet n => '\\' :: 'x' :: hexPadded 2 n

end Piece

/-- The beginning of a text that has at most so many octets. -/
def cut : Nat → List Char → List Piece
  | 0, _ => []
  | _, [] => []
  | n + 1, c :: rest =>
    let os := octets c
    if os.length ≤ n + 1 then .char c :: cut (n + 1 - os.length) rest
    else (os.take (n + 1)).map .octet

/-- A text as it is shown where only characters can stand. -/
def shown (pieces : List Piece) : String :=
  String.ofList (pieces.map Piece.shownChar)

/-- A text between double quotes. -/
def quotedPieces (pieces : List Piece) : String :=
  String.ofList ('"' :: pieces.flatMap Piece.encoded ++ ['"'])

end Text

end PathWitness
