import PathWitness.Search.Backtracking

/-!
# Remembering Models

Answers are remembered under the text of the conditions they answer. A model
is remembered, and so is the finding that there is none; an answer that was
given up on is not. When the memory is full, the answer that was not asked for
the longest is forgotten.

## Main definitions

* `conditionKey`: The text of a list of conditions.
* `ModelCache`: Remembered answers, the most recently used first.
* `ModelCache.find?`, `ModelCache.store`: Recalling and remembering.
-/

namespace PathWitness

/-- The text of a list of conditions. -/
def conditionKey (conditions : List (Option Term)) : String :=
  String.intercalate " && " (conditions.map fun
    | some c => c.text
    | none => "<nil>")

/-- An answer that can be remembered. -/
inductive Finding where
  /-- There is a model. -/
  | model (m : Model)
  /-- There is none. -/
  | unsatisfiable

/-- Remembered answers. -/
structure ModelCache where
  /-- How many answers are remembered. -/
  capacity : Nat
  /-- The answers by condition text, the most recently used first. -/
  entries : List (String × Finding) := []
  /-- How often an answer was remembered. -/
  hits : Nat := 0
  /-- How often no answer was remembered. -/
  misses : Nat := 0

/-- No memory has room for fewer than one answer. -/
structure CapacityError where
  deriving Repr, DecidableEq

/-- The wording of a capacity error. -/
def CapacityError.message (_ : CapacityError) : String :=
  "failed to create model cache: must provide a positive size"

instance : Fault CapacityError := ⟨fun _ => .error, CapacityError.message⟩

namespace ModelCache

/-- An empty memory for so many answers. -/
def ofSize (size : Int) : Except CapacityError ModelCache :=
  if 0 < size then .ok { capacity := size.toNat } else .error {}

/-- How many answers are remembered now. -/
def size (c : ModelCache) : Nat :=
  c.entries.length

/-- The entries without the one under a key. -/
def without (key : String) (entries : List (String × Finding)) : List (String × Finding) :=
  entries.filter (·.1 != key)

/-- The answer under a key, which thereby becomes the most recently used. -/
def find? (c : ModelCache) (key : String) : Option (Finding × ModelCache) :=
  match c.entries.lookup key with
  | some f => some (f, { c with entries := (key, f) :: without key c.entries, hits := c.hits + 1 })
  | none => none

/-- Remembers an answer under a key, at the cost of the least recently used
    one when there is no room. -/
def store (c : ModelCache) (key : String) (f : Finding) : ModelCache :=
  { c with entries := ((key, f) :: without key c.entries).take c.capacity }

end ModelCache

end PathWitness
