import PathWitness.Duration

/-!
# Search Settings

How models are searched for: which backend answers, how long it may take,
whether answers are remembered, and how far the search goes. A setting that is
left out takes its default.

## Main definitions

* `SearchSettings`: The settings.
* `SearchSettings.withDefaults`: Fills in what is left out.
* `SearchSettings.timeoutNanoseconds`: The time an answer may take.
-/

namespace PathWitness

/-- How models are searched for. -/
structure SearchSettings where
  /-- Which backend answers. -/
  strategy : String := ""
  /-- The time an answer may take. -/
  timeout : String := ""
  /-- Answers are remembered. -/
  useCache : Bool := false
  /-- How many answers are remembered. -/
  cacheSize : Int := 0
  /-- How many values are tried for a symbol. -/
  maxCandidates : Int := 0
  /-- How many values are tried in all. -/
  maxSteps : Int := 0
  deriving Repr, DecidableEq, Inhabited

namespace SearchSettings

/-- The settings of a search that nothing is said about. -/
def default : SearchSettings where
  strategy := "local"
  timeout := "3s"
  useCache := true
  cacheSize := 1000
  maxCandidates := 16
  maxSteps := 200000

/-- The settings with defaults for what is left out. Whether answers are
    remembered cannot be left out. -/
def withDefaults (c : SearchSettings) : SearchSettings where
  strategy := if c.strategy = "" then default.strategy else c.strategy
  timeout := if c.timeout = "" then default.timeout else c.timeout
  useCache := c.useCache
  cacheSize := if c.cacheSize = 0 then default.cacheSize else c.cacheSize
  maxCandidates := if c.maxCandidates = 0 then default.maxCandidates else c.maxCandidates
  maxSteps := if c.maxSteps = 0 then default.maxSteps else c.maxSteps

/-- The time an answer may take: three seconds unless the setting is a
    positive span of time. -/
def timeoutNanoseconds (c : SearchSettings) : Int :=
  match Duration.parse? c.timeout with
  | some d => if 0 < d then d else 3000000000
  | none => 3000000000

end SearchSettings

end PathWitness
