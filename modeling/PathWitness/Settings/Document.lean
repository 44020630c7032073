import PathWitness.FileName
import PathWitness.Json.Decode
import PathWitness.Settings
import PathWitness.Yaml.Decode

/-!
# Settings in Documents

Settings are read from a file, whose extension tells whether it is a JSON text
or a YAML document. A rule file is named relative to the place of the file
with the settings.

## Main definitions

* `Settings.decodeYaml`, `Settings.decodeJson`: Settings from documents.
* `Settings.load`: Checked settings from the text of a file.
-/

namespace PathWitness

namespace Settings

/-- The settings of a YAML document, in which unknown keys are ignored. -/
def searchFields : List (Yaml.Field Empty SearchSettings) :=
  [⟨"strategy", fun n s => return { s with strategy := ← n.decodeText }⟩,
   ⟨"timeout", fun n s => return { s with timeout := ← n.decodeText }⟩,
   ⟨"use_cache", fun n s => return { s with useCache := ← n.decodeFlag }⟩,
   ⟨"cache_size", fun n s => return { s with cacheSize := ← n.decodeInteger }⟩,
   ⟨"max_candidates", fun n s => return { s with maxCandidates := ← n.decodeInteger }⟩,
   ⟨"max_steps", fun n s => return { s with maxSteps := ← n.decodeInteger }⟩]

/-- The settings of the generator. -/
def generatorFields : List (Yaml.Field Empty Settings) :=
  [⟨"class_name", fun n s => return { s with className := ← n.decodeText }⟩,
   ⟨"pre_init_roots", fun n s =>
      return { s with initialRoots := ← n.decodeList? Yaml.Node.decodeText }⟩,
   ⟨"workers", fun n s => return { s with workers := ← n.decodeInteger }⟩,
   ⟨"output", fun n s => return { s with output := ← n.decodeText }⟩]

/-- The settings without those of the generator. -/
def withoutGenerator (s : Settings) : Settings :=
  { search := s.search, rules := s.rules, verbose := s.verbose }

/-- All settings. -/
def fields : List (Yaml.Field Empty Settings) :=
  [⟨"solver", fun n s =>
      return { s with search := ← n.decodeRecord false searchFields {} s.search }⟩,
   ⟨"generator", fun n s => n.decodeRecord false generatorFields s.withoutGenerator s⟩,
   ⟨"rules", fun n s => return { s with rules := ← n.decodeText }⟩,
   ⟨"verbose", fun n s => return { s with verbose := ← n.decodeFlag }⟩]

/-- The settings of a YAML document. -/
def decodeYaml (text : String) : Except (Yaml.DocumentError Empty) Settings :=
  Yaml.decode text fun n => n.decodeRecord false fields {} {}

/-- Settings that are decoded from a JSON text. -/
structure Draft where
  /-- The settings without the initial roots. -/
  settings : Settings := {}
  /-- The initial roots. -/
  roots : Json.TextSlots := {}

/-- The settings that have been decoded. -/
def Draft.finished (d : Draft) : Settings :=
  { d.settings with initialRoots := d.roots.texts }

/-- A field of the settings, as a field of their draft. -/
def draftField (name : String)
    (read : Json.Value → Json.Place → Settings → Json.DecodeM Settings) : Json.Field Draft :=
  ⟨name, fun v p d => return { d with settings := ← read v p d.settings }⟩

/-- The settings of the search in a JSON text. -/
def searchMembers : List (Json.Field SearchSettings) :=
  [⟨"strategy", fun v p s => return { s with strategy := ← v.decodeText p s.strategy }⟩,
   ⟨"timeout", fun v p s => return { s with timeout := ← v.decodeText p s.timeout }⟩,
   ⟨"use_cache", fun v p s => return { s with useCache := ← v.decodeFlag p s.useCache }⟩,
   ⟨"cache_size", fun v p s => return { s with cacheSize := ← v.decodeInteger p s.cacheSize }⟩,
   ⟨"max_candidates", fun v p s =>
      return { s with maxCandidates := ← v.decodeInteger p s.maxCandidates }⟩,
   ⟨"max_steps", fun v p s => return { s with maxSteps := ← v.decodeInteger p s.maxSteps }⟩]

/-- The settings of the generator in a JSON text. -/
def generatorMembers : List (Json.Field Draft) :=
  [draftField "class_name" fun v p s =>
     return { s with className := ← v.decodeText p s.className },
   ⟨"pre_init_roots", fun v p d => return { d with roots := ← v.decodeTexts p d.roots }⟩,
   draftField "workers" fun v p s => return { s with workers := ← v.decodeInteger p s.workers },
   draftField "output" fun v p s => return { s with output := ← v.decodeText p s.output }]

/-- All settings in a JSON text. -/
def members : List (Json.Field Draft) :=
  [draftField "solver" fun v p s =>
     return { s with search := ← v.decodeRecord "solver.Config" searchMembers p s.search },
   ⟨"generator", fun v p d => v.decodeRecord "config.GeneratorConfig" generatorMembers p d⟩,
   draftField "rules" fun v p s => return { s with rules := ← v.decodeText p s.rules },
   draftField "verbose" fun v p s => return { s with verbose := ← v.decodeFlag p s.verbose }]

/-- Why a text is not a JSON text of settings. -/
inductive JsonError where
  /-- The text is not a JSON text. -/
  | text (fault : Json.TextFault)
  /-- A value has another shape than its field. -/
  | shape (fault : Json.ShapeFault)

/-- The wording of a JSON error. -/
def JsonError.message : JsonError → String
  | text e => e.message
  | shape e => e.message

/-- The settings of a JSON text. -/
def decodeJson (text : String) : Except JsonError Settings :=
  match Json.Value.parse text with
  | .error e => .error (.text e)
  | .ok v =>
    match (v.decodeRecord "config.Config" members { record := "Config" } {}).run none with
    | (d, none) => .ok d.finished
    | (_, some e) => .error (.shape e)

/-- Why there are no settings. -/
inductive LoadError where
  /-- The file cannot be read. -/
  | read (cause : String)
  /-- The file is not a YAML document of settings. -/
  | yaml (file : String) (error : Yaml.DocumentError Empty)
  /-- The file is not a JSON text of settings. -/
  | json (file : String) (error : JsonError)
  /-- The settings make no sense. -/
  | invalid (file : String) (fault : SettingsFault)

namespace LoadError

/-- The wording of a load error. -/
def message : LoadError → String
  | read cause => "failed to read config file: " ++ cause
  | yaml f e => "failed to unmarshal config " ++ f ++ ": " ++ e.message
  | json f e => "failed to unmarshal config " ++ f ++ ": " ++ e.message
  | invalid f e => "config " ++ f ++ ": " ++ e.message

/-- The kind of a load error. -/
def kind : LoadError → ErrorKind
  | yaml _ e => e.kind
  | json _ _ => .json
  | read _ | invalid _ _ => .error

end LoadError

instance : Fault LoadError := ⟨LoadError.kind, LoadError.message⟩

/-- The settings of a document, by the extension of its file. -/
def decode (file text : String) : Except LoadError Settings :=
  if Text.sameWord (FileName.extension file) ".json" then
    (decodeJson text).mapError (.json file)
  else (decodeYaml text).mapError (.yaml file)

/-- The settings with the rule file named relative to a place. -/
def relativeTo (place : String) (s : Settings) : Settings :=
  if s.rules = "" || FileName.isAbsolute s.rules then s
  else { s with rules := FileName.join place s.rules }

/-- Checked settings from what was read from a file. -/
def load (file : String) (content : Except String String) : Except LoadError Settings := do
  let text ← content.mapError .read
  let s := (← decode file text).withDefaults
  s.check.mapError (.invalid file)
  return s.relativeTo (FileName.directory file)

end Settings

end PathWitness
