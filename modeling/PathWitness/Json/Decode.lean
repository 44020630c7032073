import PathWitness.Json.Value
import PathWitness.Text.Fold

/-!
# Decoding JSON Values

A value is decoded into a record whose fields keep what they hold if they are
not written. Names of fields are recognised whatever the case of their letters,
unknown names are ignored, and of several values for one field the last counts.
A null leaves a field as it is.

The first value that has another shape than its field is reported in the end,
with its place.

## Main definitions

* `ShapeFault`: A value of another shape than its field.
* `Place`: Where a value is.
* `TextSlots`: A list of texts that may be decoded several times.
* `Value.decodeText`, `Value.decodeFlag`, `Value.decodeInteger`,
  `Value.decodeTexts`, `Value.decodeRecord`: Values of the known shapes.
-/

namespace PathWitness

namespace Json

/-- A step on the way to a value. -/
inductive Step where
  /-- Into a field, by its name as it is written. -/
  | field (name : String)
  /-- To an item of a list, by its index. -/
  | item (index : Nat)
  deriving Repr, DecidableEq

/-- A step as it is shown. -/
def Step.text : Step → String
  | field name => name
  | item i => toString i

/-- Where a value is: the record that is decoded, and the way to the value. -/
structure Place where
  /-- The name of the record. -/
  record : String
  /-- The steps that lead to the value, the last one first. -/
  steps : List Step := []
  deriving Repr, DecidableEq

namespace Place

/-- The place one step further. -/
def enter (p : Place) (s : Step) : Place :=
  { p with steps := s :: p.steps }

/-- A place as it is shown: items of lists by their way only. -/
def text (p : Place) : String :=
  let way := String.intercalate "." (p.record :: p.steps.reverse.map Step.text)
  match p.steps with
  | [] => "Go value"
  | .field _ :: _ => "Go struct field " ++ way
  | .item _ :: _ => way

end Place

/-- A value of another shape than its field. -/
structure ShapeFault where
  /-- What was written. -/
  found : String
  /-- Where it was written. -/
  place : Place
  /-- The type of the field. -/
  expected : String
  deriving Repr, DecidableEq

/-- The wording of a shape fault. -/
def ShapeFault.message (e : ShapeFault) : String :=
  "json: cannot unmarshal " ++ e.found ++ " into " ++ e.place.text ++ " of type " ++ e.expected

/-- Decoding, which keeps the first fault. -/
abbrev DecodeM := StateM (Option ShapeFault)

/-- Keeps a fault if it is the first, and goes on with a value. -/
def note {α : Type} (e : ShapeFault) (a : α) : DecodeM α := do
  modify fun first => first.or (some e)
  return a

/-- A named field of a record, with the way to decode it into the record. -/
structure Field (σ : Type) where
  /-- The name of the field. -/
  name : String
  /-- Puts the decoded field into the record. -/
  read : Value → Place → σ → DecodeM σ

/-- A list of texts that may be decoded several times. Texts behind its end
    that were decoded before are kept, and come back when nothing is written in
    their place. -/
structure TextSlots where
  /-- The texts, those behind the end included. -/
  slots : List String := []
  /-- The number of texts in the list; none if there is no list. -/
  size : Option Nat := none

/-- The texts of the list, if there is one. -/
def TextSlots.texts (t : TextSlots) : Option (List String) :=
  t.size.map t.slots.take

namespace Value

/-- The word for a kind of value. -/
def kindName : Value → String
  | null => "null"
  | bool _ => "bool"
  | number _ => "number"
  | string _ => "string"
  | array _ => "array"
  | object _ => "object"

/-- Decodes a text. -/
def decodeText (v : Value) (place : Place) (current : String) : DecodeM String :=
  match v with
  | .null => return current
  | .string s => return s
  | v => note ⟨v.kindName, place, "string"⟩ current

/-- Decodes a truth value. -/
def decodeFlag (v : Value) (place : Place) (current : Bool) : DecodeM Bool :=
  match v with
  | .null => return current
  | .bool b => return b
  | v => note ⟨v.kindName, place, "bool"⟩ current

/-- The 64-bit integer that a number stands for, if it is written without
    fraction and power. -/
def integer? (s : String) : Option Int :=
  let (negative, digits) := Number.splitSign s.toList
  if digits.isEmpty || !digits.all Number.isDigit then none
  else
    match Number.readDigits 10 0 digits with
    | none => none
    | some n =>
      let i : Int := if negative then -n else n
      if Number.leastInt64 ≤ i && i ≤ Number.greatestInt64 then some i else none

/-- Decodes an integer. -/
def decodeInteger (v : Value) (place : Place) (current : Int) : DecodeM Int :=
  match v with
  | .null => return current
  | .number s =>
    match integer? s with
    | some i => return i
    | none => note ⟨"number " ++ s, place, "int"⟩ current
  | v => note ⟨v.kindName, place, "int"⟩ current

/-- Decodes the texts of a list, from an index on, into places that may hold
    texts already. -/
def decodeItems (place : Place) : Nat → List Value → List String → DecodeM (List String)
  | _, [], slots => return slots
  | i, v :: rest, slots => do
    let s ← v.decodeText (place.enter (.item i)) (slots.head?.getD "")
    return s :: (← decodeItems place (i + 1) rest slots.tail)

/-- Decodes a list of texts, which null takes away. An empty list keeps
    nothing. -/
def decodeTexts (v : Value) (place : Place) (current : TextSlots) : DecodeM TextSlots :=
  match v with
  | .null => return {}
  | .array [] => return { size := some 0 }
  | .array items => do
    return { slots := ← decodeItems place 0 items current.slots, size := some items.length }
  | v => note ⟨v.kindName, place, "[]string"⟩ current

/-- The field that a name means: the one of just that name, or else one that
    differs in letter case only. -/
def fieldOf? {σ : Type} (fields : List (Field σ)) (name : String) : Option (Field σ) :=
  (fields.find? (·.name == name)).or (fields.find? fun f => Text.sameWord name f.name)

/-- Decodes the members of an object into a record. -/
def decodeMembers {σ : Type} (place : Place) (fields : List (Field σ)) :
    List (String × Value) → σ → DecodeM σ
  | [], current => return current
  | (name, v) :: rest, current => do
    let next ← match fieldOf? fields name with
      | some f => f.read v (place.enter (.field name)) current
      | none => pure current
    decodeMembers place fields rest next

/-- Decodes a record of a type. -/
def decodeRecord {σ : Type} (type : String) (fields : List (Field σ)) (v : Value)
    (place : Place) (current : σ) : DecodeM σ :=
  match v with
  | .null => return current
  | .object members => decodeMembers place fields members current
  | v => note ⟨v.kindName, place, type⟩ current

end Value

end Json

end PathWitness
