import PathWitness.Term

/-!
# The Symbols of a Term

Which primitive symbols occur in a term, in the order of their first
occurrence and each of them once. Arguments of named functions count;
references among them do not contribute.

## Main definitions

* `Term.occurrences`: Every occurrence of a symbol, from left to right.
* `firstOccurrences`: A list of symbols without repeated numbers.
* `Term.symbols`: The symbols of a term.
* `symbolsOf`: The symbols of a term that may be missing.
-/

namespace PathWitness

mutual

/-- Every occurrence of a symbol in a term, from left to right. -/
def Term.occurrences : Term → List PrimSymbol
  | .const _ => []
  | .symbol s => [s]
  | .unary _ arg => arg.occurrences
  | .binary _ left right => left.occurrences ++ right.occurrences
  | .convert _ _ arg => arg.occurrences
  | .apply _ _ args => argOccurrences args

/-- Every occurrence of a symbol in the arguments of a named function. -/
def argOccurrences : List Value → List PrimSymbol
  | [] => []
  | .term t :: rest => t.occurrences ++ argOccurrences rest
  | .ref _ :: rest => argOccurrences rest

end

/-- The symbols of a list without those whose number occurred before. -/
def firstOccurrences : List PrimSymbol → List PrimSymbol
  | [] => []
  | s :: rest => s :: (firstOccurrences rest).filter (·.number != s.number)

/-- The symbols of a term, each once, in the order of first occurrence. -/
def Term.symbols (t : Term) : List PrimSymbol :=
  firstOccurrences t.occurrences

/-- The symbols of a term that may be missing. -/
def symbolsOf : Option Term → Except AbsentTerm (List PrimSymbol)
  | some t => .ok t.symbols
  | none => .error {}

end PathWitness
