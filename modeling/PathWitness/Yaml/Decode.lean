import PathWitness.Fault
import PathWitness.Yaml.Meaning
import PathWitness.Yaml.Node

/-!
# Decoding Documents

A document is decoded into the values of a record. A part that does not have
the expected shape is noted, and decoding goes on; in the end the document is
refused if anything was noted. A decoder can also refuse a document at once,
for a reason of its own.

Where nothing is written a field keeps its zero value. Strict decoding notes
keys that are unknown or repeated; otherwise unknown keys are ignored and the
last of several values counts. The key `<<` takes over the entries of other
mappings.

A node that is referred to is decoded anew for each reference. It is refused
to decode a node inside of itself, or a document of which nearly all is
referred to again and again.

## Main definitions

* `DocumentError`: Why a document cannot be decoded.
* `DecodeM`: Decoding.
* `Node.visit`: Decodes a node or the node that it refers to.
* `Node.decodeText`, `Node.decodeFlag`, `Node.decodeInteger`,
  `Node.decodeList`, `Node.decodePairs`: Values of the basic shapes.
* `Node.decodeRecord`: Records with named fields.
* `decode`: Decodes the text of a document.
-/

namespace PathWitness

namespace Yaml

/-- Why a document cannot be decoded. A decoder may have reasons of its
    own. -/
inductive DocumentError (ε : Type) where
  /-- The text is not a document, or the document has another shape. -/
  | malformed
  /-- The decoder refused it. -/
  | refused (cause : ε)
  deriving Repr, DecidableEq

/-- The wording of a document error. -/
def DocumentError.message {ε : Type} [Fault ε] : DocumentError ε → String
  | malformed => "yaml"
  | refused e => Fault.message e

/-- The kind of a document error. -/
def DocumentError.kind {ε : Type} [Fault ε] : DocumentError ε → ErrorKind
  | malformed => .yaml
  | refused e => Fault.kind e

instance {ε : Type} [Fault ε] : Fault (DocumentError ε) :=
  ⟨DocumentError.kind, DocumentError.message⟩

/-- What is known while a document is decoded. -/
structure Progress where
  /-- Something of another shape was met. -/
  noted : Bool := false
  /-- The number of nodes that have been decoded, the document included. -/
  decoded : Nat := 1
  /-- How many of them were reached through references. -/
  referred : Nat := 0
  /-- The references through which the current node was reached. -/
  through : List Nat := []

/-- How many of a number of decoded nodes may have been reached through
    references, as a share. It falls from 99 to 10 in a hundred while the number
    grows from 400000 to 4000000. -/
def allowedShare (decoded : Nat) : Float :=
  if decoded ≤ 400000 then 0.99
  else if 4000000 ≤ decoded then 0.10
  else 0.99 - 0.89 * ((decoded - 400000).toFloat / 3600000.0)

/-- Too many of the decoded nodes were reached through references. -/
def Progress.isExcessive (p : Progress) : Bool :=
  100 < p.referred && 1000 < p.decoded &&
    allowedShare p.decoded < p.referred.toFloat / p.decoded.toFloat

/-- One more node is decoded. -/
def Progress.count (p : Progress) : Progress :=
  { p with
    decoded := p.decoded + 1
    referred := if p.through.isEmpty then p.referred else p.referred + 1 }

/-- Decoding a document. -/
abbrev DecodeM (ε : Type) := ReaderT Document (ExceptT (DocumentError ε) (StateM Progress))

variable {ε α σ : Type}

/-- Notes a part that does not have the expected shape, for which a value
    stands. -/
def note (a : α) : DecodeM ε α := do
  modify fun p => { p with noted := true }
  return a

/-- Refuses the document at once, for a reason of the decoder. -/
def refuse (e : ε) : DecodeM ε α :=
  throw (.refused e)

/-- Counts a node that is decoded. -/
def countNode : DecodeM ε Unit := do
  modify Progress.count
  if (← get).isExcessive then throw .malformed

/-- A named field of a record, with the way to decode it into the record. -/
structure Field (ε σ : Type) where
  /-- The name of the field. -/
  name : String
  /-- Puts the decoded field into the record. -/
  read : Node → σ → DecodeM ε σ

namespace Node

/-- Decodes a node, or the node that it refers to. -/
def visit (n : Node) (decoder : Node → DecodeM ε α) : DecodeM ε α := do
  countNode
  match n with
  | .reference self target =>
    let opened := (← get).through
    if opened.contains self then throw .malformed
    modify fun p => { p with through := self :: opened }
    countNode
    let a ← match (← read).named.lookup target with
      | some n => decoder n
      | none => throw .malformed
    modify fun p => { p with through := opened }
    return a
  | _ => decoder n

/-- What a node that is not a collection stands for. -/
def meaning? (n : Node) : DecodeM ε (Option Meaning) :=
  match n with
  | .scalar s =>
    match s.meaning? with
    | some m => return some m
    | none => throw .malformed
  | _ => return none

/-- Decodes a scalar by what it stands for. Nothing gives a zero value, and
    what cannot be taken is noted. -/
def decodeScalar (zero : α) (take : Meaning → Option α) (n : Node) : DecodeM ε α :=
  n.visit fun n => do
    match ← n.meaning? with
    | some .null => return zero
    | some m =>
      match take m with
      | some a => return a
      | none => note zero
    | none => note zero

/-- Decodes a text. A plain scalar is taken as it is written. -/
def decodeText (n : Node) : DecodeM ε String :=
  n.visit fun n => do
    match n, ← n.meaning? with
    | .scalar _, some .null => return ""
    | .scalar s, _ => return s.text
    | _, _ => note ""

/-- Decodes a truth value. -/
def decodeFlag (n : Node) : DecodeM ε Bool :=
  n.decodeScalar false fun
    | .flag b => some b
    | _ => none

/-- Decodes a 64-bit integer. A floating-point number loses its fraction and is
    kept within the bounds, unless it is above them. -/
def decodeInteger (n : Node) : DecodeM ε Int :=
  n.decodeScalar 0 fun
    | .integer i => if i ≤ Number.greatestInt64 then some i else none
    | .floating x =>
      if x ≤ Number.ofInt (Number.greatestInt64 + 1) then
        some (Number.saturate Number.leastInt64 Number.greatestInt64 x)
      else none
    | _ => none

/-- Decodes a list, if one is written. -/
def decodeList? (item : Node → DecodeM ε α) (n : Node) : DecodeM ε (Option (List α)) :=
  n.visit fun n => do
    match n, ← n.meaning? with
    | .sequence items, _ => return some (← items.mapM item)
    | _, some .null => return none
    | _, _ => note none

/-- Decodes a list. -/
def decodeList (item : Node → DecodeM ε α) (n : Node) : DecodeM ε (List α) := do
  return (← n.decodeList? item).getD []

/-- The key under which the entries of other mappings are taken over. -/
def isMerge : Node → Bool
  | .scalar s => s.text == "<<" && (s.plain || s.tag == standardTag "merge")
  | _ => false

/-- The node is a mapping. -/
def isMapping : Node → Bool
  | .mapping _ => true
  | _ => false

/-- The node is a mapping of a document, or refers to one. -/
def isMappingIn (d : Document) : Node → Bool
  | .reference _ target => (d.named.lookup target).any isMapping
  | n => n.isMapping

/-- The mappings whose entries are taken over, in the order in which they are
    decoded: of several mappings the first counts most, so it comes last. -/
def mergedMappings : Node → List Node
  | .sequence items => items.reverse
  | n => [n]

/-- Decodes the entries of a mapping one after the other, and those of the
    mappings that it takes over, into a value. Mappings that are taken over may
    take over others, to the given depth. -/
def decodeEntries (entry : Node → Node → List String → σ → DecodeM ε (List String × σ)) :
    Nat → List (Node × Node) → σ → DecodeM ε σ
  | 0, _, _ => throw .malformed
  | depth + 1, entries, value => do
    let (_, value) ← entries.foldlM (fun (met, value) (key, content) => do
      if key.isMerge then
        let value ← content.mergedMappings.foldlM (fun value n => do
          if !n.isMappingIn (← read) then throw .malformed
          n.visit fun
            | .mapping entries => decodeEntries entry depth entries value
            | _ => throw .malformed) value
        return (met, value)
      else entry key content met value) (([] : List String), value)
    return value

/-- How deep mappings may take over others: at most as deep as they are nested,
    for each reference that leads from one to another. -/
def mergeDepth : DecodeM ε Nat := do
  let size := (← read).size + 1
  return size * size

/-- Decodes a mapping of names to values, if one is written. No name may be
    repeated. -/
def decodePairs? (item : Node → DecodeM ε α) (n : Node) :
    DecodeM ε (Option (List (String × α))) :=
  n.visit fun n => do
    match n, ← n.meaning? with
    | .mapping entries, _ =>
      let pairs ← decodeEntries (fun key content met pairs => do
        let name ← key.decodeText
        let a ← item content
        if (pairs.lookup name).isSome then note (met, pairs)
        else return (met, (name, a) :: pairs)) (← mergeDepth) entries []
      return some pairs.reverse
    | _, some .null => return none
    | _, _ => note none

/-- Decodes one entry of a record, where some names have been met. -/
def decodeField (strict : Bool) (fields : List (Field ε σ)) (key content : Node)
    (met : List String) (record : σ) : DecodeM ε (List String × σ) := do
  let name ← key.decodeText
  match fields.find? (·.name == name) with
  | some field =>
    if strict && met.contains name then note (met, record)
    else return (name :: met, ← field.read content record)
  | none => if strict then note (met, record) else return (met, record)

/-- Decodes a record, whose fields keep what they hold if they are not
    written. -/
def decodeRecord (strict : Bool) (fields : List (Field ε σ)) (zero : σ) (n : Node) (record : σ) :
    DecodeM ε σ :=
  n.visit fun n => do
    match n, ← n.meaning? with
    | .mapping entries, _ =>
      decodeEntries (decodeField strict fields) (← mergeDepth) entries record
    | _, some .null => return zero
    | _, _ => note record

end Node

/-- Decodes a document. -/
def Document.decode (d : Document) (decoder : Node → DecodeM ε α) :
    Except (DocumentError ε) α :=
  match (decoder d.root).run d |>.run |>.run {} with
  | (.error e, _) => .error e
  | (.ok a, p) => if p.noted then .error .malformed else .ok a

/-- Decodes the text of a document. -/
def decode (text : String) (decoder : Node → DecodeM ε α) : Except (DocumentError ε) α :=
  match Document.parse? text with
  | none => .error .malformed
  | some d => d.decode decoder

end Yaml

end PathWitness
