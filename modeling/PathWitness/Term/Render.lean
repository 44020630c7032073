import PathWitness.Term

/-!
# Terms as Source Text

A term written as an expression of source text, where the caller decides how
each symbol is written. Every operator application and every cast is in
parentheses.

## Main definitions

* `Term.render`: The source text of a term.
* `renderOf`: The source text of a term that may be missing.
-/

namespace PathWitness

mutual

/-- The source text of a term, where `write` gives the text of its symbols. -/
def Term.render {ε : Type} (write : PrimSymbol → Except ε String) : Term → Except ε String
  | .const c => .ok c.text
  | .symbol s => write s
  | .unary op arg => do
    return "(" ++ op.symbol ++ (← arg.render write) ++ ")"
  | .binary op left right => do
    let a ← left.render write
    let b ← right.render write
    return "(" ++ a ++ " " ++ Term.binarySymbol op left right ++ " " ++ b ++ ")"
  | .convert _ dest arg => do
    return "((" ++ dest.keyword ++ ") " ++ (← arg.render write) ++ ")"
  | .apply _ name args => do
    return name ++ "(" ++ String.intercalate ", " (← renderArgs write args) ++ ")"

/-- The source texts of the arguments of a named function. -/
def renderArgs {ε : Type} (write : PrimSymbol → Except ε String) :
    List Value → Except ε (List String)
  | [] => .ok []
  | .term t :: rest => do
    let a ← t.render write
    let b ← renderArgs write rest
    return a :: b
  | .ref r :: rest => do
    return r.text :: (← renderArgs write rest)

end

/-- Why a term cannot be written. -/
inductive RenderError (ε : Type) where
  /-- A symbol cannot be written. -/
  | symbol (cause : ε)
  /-- There is no term. -/
  | absent (error : AbsentTerm)

/-- The wording of a render error. -/
def RenderError.message {ε : Type} [Fault ε] : RenderError ε → String
  | symbol e => Fault.message e
  | absent e => e.message

/-- The kind of a render error. -/
def RenderError.kind {ε : Type} [Fault ε] : RenderError ε → ErrorKind
  | symbol e => Fault.kind e
  | absent e => Fault.kind e

instance {ε : Type} [Fault ε] : Fault (RenderError ε) := ⟨RenderError.kind, RenderError.message⟩

/-- The source text of a term that may be missing. -/
def renderOf {ε : Type} (write : PrimSymbol → Except ε String) :
    Option Term → Except (RenderError ε) String
  | some t => (t.render write).mapError .symbol
  | none => .error (.absent {})

end PathWitness
