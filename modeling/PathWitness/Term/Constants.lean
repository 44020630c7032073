import PathWitness.Term

/-!
# The Constants of a Term

## Main definitions

* `Term.constants`: The constants of a term, from left to right.
-/

namespace PathWitness

mutual

/-- The constants of a term, from left to right. -/
def Term.constants : Term → List Const
  | .const c => [c]
  | .symbol _ => []
  | .unary _ arg => arg.constants
  | .binary _ left right => left.constants ++ right.constants
  | .convert _ _ arg => arg.constants
  | .apply _ _ args => argConstants args

/-- The constants in the arguments of a named function. -/
def argConstants : List Value → List Const
  | [] => []
  | .term t :: rest => t.constants ++ argConstants rest
  | .ref _ :: rest => argConstants rest

end

end PathWitness
