import PathWitness.Rule.Document
import PathWitness.Scenario

/-!
# Scenarios in Documents

A document describes one scenario. Steps of scripts are mappings in which the
keys say what the step does.

## Main definitions

* `decodeStep`: Decodes a step.
* `decodeScenario`: Decodes a scenario.
* `Scenario.ofText`, `Scenario.parse`: The scenario of a document.
-/

namespace PathWitness

open Yaml

/-- Decodes a list of texts. -/
def decodeTexts {ε : Type} (n : Node) : DecodeM ε (List String) :=
  n.decodeList Node.decodeText

/-- The fields of a step. -/
def stepFields {ε : Type} : List (Field ε Step) :=
  [⟨"resolve", fun n s => return { s with resolve := ← n.decodeText }⟩,
   ⟨"as", fun n s => return { s with manner := ← n.decodeText }⟩,
   ⟨"class", fun n s => return { s with className := ← n.decodeText }⟩,
   ⟨"target", fun n s => return { s with target := ← n.decodeText }⟩,
   ⟨"not_null", fun n s => return { s with notNull := ← decodeTexts n }⟩,
   ⟨"assume", fun n s => return { s with assume := ← n.decodeText }⟩,
   ⟨"return", fun n s => return { s with result := ← n.decodeText }⟩,
   ⟨"throw", fun n s => return { s with exception := ← n.decodeText }⟩]

/-- Decodes a step. -/
def decodeStep {ε : Type} (n : Node) : DecodeM ε Step :=
  n.decodeRecord true stepFields {} {}

/-- The fields of a script. -/
def scriptFields {ε : Type} : List (Field ε Script) :=
  [⟨"name", fun n s => return { s with name := ← n.decodeText }⟩,
   ⟨"steps", fun n s => return { s with steps := ← n.decodeList decodeStep }⟩,
   ⟨"model", fun n s => return { s with model := ← n.decodePairs? Node.decodeText }⟩]

/-- Decodes a script. -/
def decodeScript {ε : Type} (n : Node) : DecodeM ε Script :=
  n.decodeRecord true scriptFields {} {}

/-- Decodes the declaration of a field. -/
def decodeFieldDecl {ε : Type} (n : Node) : DecodeM ε FieldDecl :=
  n.decodeRecord true
    [⟨"name", fun n f => return { f with name := ← n.decodeText }⟩,
     ⟨"type", fun n f => return { f with type := ← n.decodeText }⟩] {} {}

/-- The fields of the declaration of a class. -/
def classFields {ε : Type} : List (Field ε ClassDecl) :=
  [⟨"name", fun n c => return { c with name := ← n.decodeText }⟩,
   ⟨"super", fun n c => return { c with super := ← n.decodeText }⟩,
   ⟨"abstract", fun n c => return { c with isAbstract := ← n.decodeFlag }⟩,
   ⟨"fields", fun n c => return { c with fields := ← n.decodeList decodeFieldDecl }⟩]

/-- Decodes the declaration of a class. -/
def decodeClass {ε : Type} (n : Node) : DecodeM ε ClassDecl :=
  n.decodeRecord true classFields {} {}

/-- Decodes the bodies of methods, by name. -/
def decodeTriggers {ε : Type} (n : Node) : DecodeM ε (List (String × List Step)) := do
  return (← n.decodePairs? (Node.decodeList decodeStep)).getD []

/-- The fields of a scenario. -/
def scenarioFields : List (Field UnknownKind Scenario) :=
  [⟨"name", fun n s => return { s with name := ← n.decodeText }⟩,
   ⟨"method", fun n s => return { s with method := ← decodeMethod n }⟩,
   ⟨"static", fun n s => return { s with isStatic := ← n.decodeFlag }⟩,
   ⟨"parameters", fun n s => return { s with parameters := ← decodeTexts n }⟩,
   ⟨"classes", fun n s => return { s with classes := ← n.decodeList decodeClass }⟩,
   ⟨"rules", fun n s => return { s with rules := ← n.decodeList decodeRule }⟩,
   ⟨"triggers", fun n s => return { s with triggers := ← decodeTriggers n }⟩,
   ⟨"paths", fun n s => return { s with scripts := ← n.decodeList decodeScript }⟩]

/-- Decodes a scenario. -/
def decodeScenario (n : Node) : RuleDecodeM Scenario :=
  n.decodeRecord true scenarioFields {} {}

/-- Why a text is not a scenario. -/
inductive ScenarioDocumentError where
  /-- The document has another shape. -/
  | document (error : DocumentError UnknownKind)
  /-- The scenario is ill-formed. -/
  | scenario (error : ScenarioError)

namespace ScenarioDocumentError

/-- The wording of a scenario document error. -/
def message : ScenarioDocumentError → String
  | document e => "failed to parse scenario: " ++ e.message
  | scenario e => e.message

/-- The kind of a scenario document error. -/
def kind : ScenarioDocumentError → ErrorKind
  | document e => e.kind
  | scenario _ => .error

end ScenarioDocumentError

instance : Fault ScenarioDocumentError :=
  ⟨ScenarioDocumentError.kind, ScenarioDocumentError.message⟩

namespace Scenario

/-- The scenario of a document, checked or not. -/
def ofText (text : String) (checked : Bool) : Except ScenarioDocumentError Scenario := do
  let s ← (decode text decodeScenario).mapError .document
  if checked then s.check.mapError .scenario
  return s

/-- The checked scenario of a document. -/
def parse (text : String) : Except ScenarioDocumentError Scenario :=
  ofText text true

end Scenario

end PathWitness
