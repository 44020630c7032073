import PathWitness.Rule
import PathWitness.Yaml.Decode

/-!
# Rules in Documents

A document of rules is a mapping with one key, under which the rules are
listed.

## Main definitions

* `decodeRule`: Decodes a rule.
* `RuleTable.parse`: The rules of a document.
-/

namespace PathWitness

open Yaml

/-- Decoding of documents that contain rules. -/
abbrev RuleDecodeM := DecodeM UnknownKind

/-- A scalar that stands for no kind instead of naming one. -/
def namesNoKind (s : Scalar) : Bool :=
  if s.tag.isEmpty then s.text == "null" || s.text == "~" || (s.text == "" && s.plain)
  else s.tag == standardTag "null"

/-- Decodes the kind of a rule. The words for nothing leave it open only when
    they are plain; any other text must name a kind. -/
def decodeKind (n : Node) : RuleDecodeM (Option TriggerKind) :=
  n.visit fun n => do
    match n with
    | .scalar s =>
      if namesNoKind s then
        if (← n.meaning?) matches some .null then return none else note none
      else
        match TriggerKind.ofWord (← n.decodeText) with
        | .ok k => return some k
        | .error e => refuse e
    | _ => note none

/-- The fields of a method. -/
def methodFields {ε : Type} : List (Field ε Signature) :=
  [⟨"class", fun n m => return { m with className := ← n.decodeText }⟩,
   ⟨"descriptor", fun n m => return { m with descriptor := ← n.decodeText }⟩,
   ⟨"name", fun n m => return { m with name := ← n.decodeText }⟩]

/-- Decodes a method. -/
def decodeMethod {ε : Type} (n : Node) : DecodeM ε Signature :=
  n.decodeRecord true methodFields {} {}

/-- The fields of a rule. -/
def ruleFields : List (Field UnknownKind RuleSpec) :=
  [⟨"kind", fun n r => return { r with kind := ← decodeKind n }⟩,
   ⟨"origin", fun n r => return { r with origin := ← n.decodeText }⟩,
   ⟨"class", fun n r => return { r with className := ← n.decodeText }⟩,
   ⟨"method", fun n r => return { r with method := ← decodeMethod n }⟩,
   ⟨"parameter", fun n r => return { r with parameter := ← n.decodeText }⟩]

/-- Decodes a rule. -/
def decodeRule (n : Node) : RuleDecodeM RuleSpec :=
  n.decodeRecord true ruleFields {} {}

/-- Decodes a document of rules. -/
def decodeRules (n : Node) : RuleDecodeM (List RuleSpec) :=
  n.decodeRecord true [⟨"rules", fun n _ => n.decodeList decodeRule⟩] [] []

/-- Why a text is not a document of rules. -/
inductive RuleDocumentError where
  /-- The document has another shape. -/
  | document (error : DocumentError UnknownKind)
  /-- The rules do not make a table. -/
  | table (error : RuleError)

namespace RuleDocumentError

/-- The wording of a rule document error. -/
def message : RuleDocumentError → String
  | document e => "failed to parse rules: " ++ e.message
  | table e => e.message

/-- The kind of a rule document error. -/
def kind : RuleDocumentError → ErrorKind
  | document e => e.kind
  | table _ => .error

end RuleDocumentError

instance : Fault RuleDocumentError := ⟨RuleDocumentError.kind, RuleDocumentError.message⟩

/-- The rules of a document. -/
def RuleTable.parse (text : String) : Except RuleDocumentError RuleTable := do
  let rules ← (decode text decodeRules).mapError .document
  (RuleTable.ofList rules).mapError .table

end PathWitness
