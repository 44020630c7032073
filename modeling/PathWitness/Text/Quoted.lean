import PathWitness.Text.Printable

/-!
# Quoted Text

How a piece of text is shown inside a message: between double quotes, with
every character that has no visible form written as an escape, so that two
different texts never look the same.

A quotation mark of the kind in use and the backslash are written after a
backslash. Printable characters stand for themselves. The seven control
characters with a letter of their own use it, other ASCII controls take two
hexadecimal digits, and everything else takes four or eight.

## Main definitions

* `escape`: The escape of a character with no visible form.
* `encodeChar`: A character as it is written between two marks.
* `quoted`: A text between double quotes.
* `quotedChar`: A single character between apostrophes.
-/

namespace PathWitness

namespace Text

/-- The hexadecimal digits of a number, filled up to a width with zeros. -/
def hexPadded (width n : Nat) : List Char :=
  let digits := Nat.toDigits 16 n
  List.replicate (width - digits.length) '0' ++ digits

/-- The escape of a character with no visible form. -/
def escape (c : Char) : List Char :=
  match c.toNat with
  | 0x07 => ['\\', 'a']
  | 0x08 => ['\\', 'b']
  | 0x0c => ['\\', 'f']
  | 0x0a => ['\\', 'n']
  | 0x0d => ['\\', 'r']
  | 0x09 => ['\\', 't']
  | 0x0b => ['\\', 'v']
  | n =>
    if n < 0x20 || n == 0x7f then '\\' :: 'x' :: hexPadded 2 n
    else if n < 0x10000 then '\\' :: 'u' :: hexPadded 4 n
    else '\\' :: 'U' :: hexPadded 8 n

/-- A character as it is written between two marks. -/
def encodeChar (mark c : Char) : List Char :=
  if c == mark || c == '\\' then ['\\', c]
  else if isPrintable c then [c]
  else escape c

/-- A text between double quotes. -/
def quoted (s : String) : String :=
  String.ofList ('"' :: s.toList.flatMap (encodeChar '"') ++ ['"'])

/-- A single character between apostrophes. -/
def quotedChar (c : Char) : String :=
  String.ofList ('\'' :: encodeChar '\'' c ++ ['\''])

end Text

end PathWitness
