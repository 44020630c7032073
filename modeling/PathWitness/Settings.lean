import PathWitness.Search.Solver
import PathWitness.TestCase.Case

/-!
# Settings

How scenarios are turned into tests: how models are searched for, how the test
class is written, and which rules hold for all scenarios. A setting that is
left out takes its default, and settings are checked before they are used.

## Main definitions

* `Settings`: The settings.
* `Settings.withDefaults`: Fills in what is left out.
* `Settings.check`: Refuses settings that make no sense.
-/

namespace PathWitness

/-- How scenarios are turned into tests. -/
structure Settings where
  /-- How models are searched for. -/
  search : SearchSettings := {}
  /-- The name of the test class, without its ending. -/
  className : String := ""
  /-- The roots of what was there before a path began. -/
  initialRoots : Option (List String) := none
  /-- How many tests are written at the same time. -/
  workers : Int := 0
  /-- The file that tests are written to; empty for none. -/
  output : String := ""
  /-- The file with the rules for all scenarios; empty for none. -/
  rules : String := ""
  /-- Tells everything that happens. -/
  verbose : Bool := false
  deriving Repr, DecidableEq, Inhabited

/-- What is wrong with settings. -/
inductive SettingsFault where
  /-- There is no such strategy. -/
  | strategy (word : String)
  /-- A memory cannot have this size. -/
  | cacheSize (size : Int)
  /-- A root has no name. -/
  | emptyRoot
  deriving Repr, DecidableEq

/-- The wording of a settings fault. -/
def SettingsFault.message : SettingsFault → String
  | strategy w => "invalid solver strategy " ++ Text.quoted w
  | cacheSize n => "invalid cache size " ++ toString n
  | emptyRoot => "empty pre-init root"

instance : Fault SettingsFault := ⟨fun _ => .error, SettingsFault.message⟩

namespace Settings

/-- The settings when nothing is said. -/
def default : Settings where
  search := .default
  className := "Generated"
  initialRoots := some ["pre_init"]
  workers := 4

/-- The settings with defaults for what is left out. A list of roots that is
    there is kept even if it is empty. -/
def withDefaults (s : Settings) : Settings :=
  { s with
    search := s.search.withDefaults
    className := if s.className = "" then default.className else s.className
    initialRoots := s.initialRoots.or default.initialRoots
    workers := if s.workers ≤ 0 then default.workers else s.workers }

/-- The strategies there are. -/
def strategies : List String := ["local", "z3", "hybrid"]

/-- The roots of what was there before a path began. -/
def roots (s : Settings) : List String :=
  s.initialRoots.getD []

/-- Checks settings. -/
def check (s : Settings) : Except SettingsFault Unit :=
  if !strategies.contains s.search.strategy then .error (.strategy s.search.strategy)
  else if s.search.cacheSize < 0 then .error (.cacheSize s.search.cacheSize)
  else if s.roots.contains "" then .error .emptyRoot
  else .ok ()

/-- How tests are written. -/
def testOptions (s : Settings) : TestCase.Options :=
  ⟨s.roots, s.verbose⟩

end Settings

end PathWitness
