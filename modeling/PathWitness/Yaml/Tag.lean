import PathWitness.Yaml.Scalar

/-!
# Names, Tags and Directives

A node may have a name, by which it is referred to further on, and a tag, which
says what the text of a scalar stands for. A tag has a handle and a suffix; a
handle stands for the beginning of the tag, as the directives before a document
say.

## Main definitions

* `TagName`: A handle with a suffix.
* `Directive`: What is said about a document before it starts.
* `readName`, `readTag`, `readDirective`: Reads them behind their marks.
-/

namespace PathWitness

namespace Yaml

/-- A tag as it is written. A tag without a handle is complete. -/
structure TagName where
  /-- The handle. -/
  handle : String := ""
  /-- What follows the handle. -/
  suffix : String := ""
  deriving Repr, DecidableEq

/-- What is said about a document before it starts. -/
inductive Directive where
  /-- The version of the language. -/
  | version (major minor : Nat)
  /-- The beginning of tags that a handle stands for. -/
  | handle (name beginning : String)
  deriving Repr, DecidableEq

/-- Reads the name of a node behind its mark. -/
def readName : ReadM String := do
  skip
  need 1
  let name ← readWhile isNameChar
  let c ← peek
  if name.isEmpty || !(endsPiece c || "?:,]\x7d%@\x60".toList.contains c) then failure
  return String.ofList name

/-- Reads one octet that is written by its number. -/
def readOctet : ReadM Nat := do
  need 3
  if (← peek) != '%' then failure
  skip
  readHex 2 0

/-- How many octets follow the first one of a character, and its share of the
    character. -/
def leadingShare? (octet : Nat) : Option (Nat × Nat) :=
  if octet < 0x80 then some (0, octet)
  else if octet < 0xc0 then none
  else if octet < 0xe0 then some (1, octet % 0x20)
  else if octet < 0xf0 then some (2, octet % 0x10)
  else if octet < 0xf8 then some (3, octet % 0x8)
  else none

/-- Reads the octets that are left of a character. -/
def readShares : Nat → Nat → ReadM Nat
  | 0, value => return value
  | n + 1, value => do
    let octet ← readOctet
    if octet < 0x80 || 0xc0 ≤ octet then failure
    readShares n (value * 0x40 + octet % 0x40)

/-- Reads a character that is written by the numbers of its octets. -/
def readEncoded : ReadM Char := do
  let (left, value) ← leadingShare? (← readOctet)
  return Char.ofNat (← readShares left value)

/-- Reads the characters of an identifier of a tag. What has been read is kept
    with the latest character first. -/
def readTagChars : Nat → List Char → ReadM (List Char)
  | 0, text => return text.reverse
  | n + 1, text => do
    let c ← peek
    if !isTagChar c then return text.reverse
    else if c == '%' then
      let e ← readEncoded
      need 1
      readTagChars n (e :: text)
    else
      skip
      need 1
      readTagChars n (c :: text)

/-- Reads an identifier of a tag, which may not be empty. -/
def readTagText : ReadM String := do
  need 1
  let text ← readTagChars (← get).size []
  if text.isEmpty then failure
  return String.ofList text

/-- Reads a handle, or as much as there is of one. -/
def readHandle : ReadM (List Char) := do
  need 1
  if (← peek) != '!' then failure
  skip
  need 1
  let name ← readWhile isNameChar
  if (← peek) == '!' then
    skip
    return '!' :: name ++ ['!']
  else return '!' :: name

/-- Reads a tag behind a handle, or behind what looked like one. -/
def readTagAfter (handle : List Char) : ReadM TagName := do
  if 1 < handle.length && handle.getLast? == some '!' then
    return ⟨String.ofList handle, ← readTagText⟩
  else
    need 1
    let suffix := handle.tail ++ (← readTagChars (← get).size [])
    return if suffix.isEmpty then ⟨"", "!"⟩ else ⟨"!", String.ofList suffix⟩

/-- Reads a tag. -/
def readTag : ReadM TagName := do
  need 2
  let tag ←
    if (← peekAt 1) == '<' then do
      skip
      skip
      let suffix ← readTagText
      if (← peek) != '>' then failure
      skip
      pure ⟨"", suffix⟩
    else do readTagAfter (← readHandle)
  need 1
  if !endsPiece (← peek) then failure
  return tag

/-- Reads a number of one or two digits. -/
def readVersionNumber : ReadM Nat := do
  need 1
  let digits ← readWhile isDigit
  if digits.isEmpty || 2 < digits.length then failure
  return (Number.readDigits 10 0 digits).getD 0

/-- Reads what follows the name of a directive. -/
def readDirectiveValue (name : String) : ReadM Directive := do
  need 1
  skipWhile isBlank
  if name == "YAML" then
    let major ← readVersionNumber
    if (← peek) != '.' then failure
    skip
    return .version major (← readVersionNumber)
  else if name == "TAG" then
    let handle ← readHandle
    if handle != ['!'] && (handle.length < 2 || handle.getLast? != some '!') then failure
    need 1
    if !isBlank (← peek) then failure
    skipWhile isBlank
    let beginning ← readTagText
    need 1
    if !endsPiece (← peek) then failure
    return .handle (String.ofList handle) beginning
  else failure

/-- Reads a directive and the rest of its line. -/
def readDirective : ReadM Directive := do
  skip
  need 1
  let name ← readWhile isNameChar
  if name.isEmpty || !endsPiece (← peek) then failure
  let d ← readDirectiveValue (String.ofList name)
  skipRestOfLine
  return d

end Yaml

end PathWitness
