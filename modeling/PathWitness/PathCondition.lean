import PathWitness.Fault
import PathWitness.Term.Symbols

/-!
# Path Conditions

What a path has assumed, in the order in which it was assumed: conditions on
primitive values, resolutions of references, and classes that were initialised
before the path began. A path condition only ever grows at its end.

Two indexes lead to clauses: from a reference to the clause that resolves it,
and from a position to the clause that created the object there. A reference
is resolved at most once, a position is expanded at most once, an alias needs
an expanded position, and an array comes with a condition on its length.

Assumptions are made in place. All that can be wrong with one is checked before
anything is written.

## Main definitions

* `Resolution`: How a reference is resolved.
* `Clause`: One assumption.
* `PathCondition`: The assumptions of a path, with their indexes.
* `ConditionM`: Computations on a path condition.
* `PathCondition.resolution?`, `PathCondition.expansion?`: The clause that
  resolves a reference, and the one that created an object.
* `PathCondition.assume`, `PathCondition.assumeNull`,
  `PathCondition.assumeExpands`, `PathCondition.assumeExpandsArray`,
  `PathCondition.assumeAliases`, `PathCondition.assumeInitialized`: One more
  assumption.
-/

namespace PathWitness

/-- How a reference is resolved. -/
inductive Resolution where
  /-- The reference is null. -/
  | null
  /-- The reference points to an object created for it. -/
  | fresh (position : Int) (type : String)
  /-- The reference points to an object another reference was expanded to. -/
  | aliasOf (position : Int)
  deriving Repr, DecidableEq

/-- What a resolved reference points to. -/
def Resolution.target : Resolution → Target
  | null => .null
  | fresh p _ => .ofPosition p
  | aliasOf p => .ofPosition p

/-- A resolution as it is shown after the reference. -/
def Resolution.text : Resolution → String
  | null => " == null"
  | fresh p type => " == Object[" ++ toString p ++ "] (fresh " ++ type ++ ")"
  | aliasOf p => " == Object[" ++ toString p ++ "]"

/-- One assumption of a path. -/
inductive Clause where
  /-- A condition holds. -/
  | assume (condition : Term)
  /-- A reference is resolved. -/
  | resolve (ref : RefSymbol) (how : Resolution)
  /-- A class was initialised before the path began. -/
  | initialized (type : String)

namespace Clause

/-- A clause as it is shown. -/
def text : Clause → String
  | assume t => t.text
  | resolve ref how => ref.id ++ how.text
  | initialized type => "pre_init(" ++ type ++ ")"

/-- The word for a kind of clause. -/
def kindName : Clause → String
  | assume _ => "assume"
  | resolve _ .null => "null"
  | resolve _ (.fresh _ _) => "expands"
  | resolve _ (.aliasOf _) => "aliases"
  | initialized _ => "class_init"

/-- The condition of a clause. -/
def condition? : Clause → Option Term
  | assume t => some t
  | _ => none

/-- The reference a clause resolves, with its resolution. -/
def resolution? : Clause → Option (RefSymbol × Resolution)
  | resolve ref how => some (ref, how)
  | _ => none

end Clause

/-- The assumptions of a path, in the order in which they were made. -/
structure PathCondition where
  /-- The assumptions, the oldest first. -/
  clauses : List Clause := []
  /-- Where the clause is that resolves a reference, by the reference's
      number. -/
  resolved : List (Nat × Nat) := []
  /-- Where the clause is that created an object, by the object's position. -/
  expanded : List (Int × Nat) := []

instance : Inhabited PathCondition := ⟨{}⟩

/-- Why an assumption cannot be made. -/
inductive ConditionError where
  /-- There is no reference to resolve. -/
  | absentReference
  /-- A condition is missing or not boolean. -/
  | notBoolean (condition : Option Term)
  /-- The reference is resolved already. -/
  | resolved (ref : RefSymbol) (earlier : Clause)
  /-- The position holds an object created for another reference. -/
  | occupied (position : Int) (earlier : Clause)
  /-- No object was created for a reference at the position. -/
  | danglingAlias (ref : RefSymbol) (position : Int)
  /-- An array needs a condition on its length. -/
  | missingLength (ref : Option RefSymbol) (type : String)
  /-- Only an array has a condition on its length. -/
  | notArray (type : String)
  /-- The condition on a length is about exactly one symbol. -/
  | lengthSymbols (condition : Term) (count : Nat)

namespace ConditionError

/-- How a value that may be missing is shown. -/
def shown : Option String → String
  | some s => s
  | none => "<nil>"

/-- The wording of a condition error. -/
def message : ConditionError → String
  | absentReference => "unsupported value kind: nil reference"
  | notBoolean c => "condition is not boolean: " ++ shown (c.map Term.text)
  | resolved ref earlier => "reference already resolved: " ++ ref.id ++ " by " ++ earlier.text
  | occupied p earlier =>
    "reference already resolved: Object[" ++ toString p ++ "] already expanded by " ++ earlier.text
  | danglingAlias ref p =>
    "alias to a position that was never expanded: " ++ ref.id ++ " -> Object[" ++ toString p ++ "]"
  | missingLength ref type =>
    "malformed array length constraint: " ++ shown (ref.map RefSymbol.id) ++
      " expands to array " ++ type ++ " without a length"
  | notArray type => "malformed array length constraint: " ++ type ++ " is not an array type"
  | lengthSymbols c n =>
    "malformed array length constraint: " ++ c.text ++ " mentions " ++ toString n ++ " symbols"

/-- The kind of a condition error. -/
def kind : ConditionError → ErrorKind
  | absentReference => .unsupportedValue
  | notBoolean _ => .notBoolean
  | resolved _ _ | occupied _ _ => .alreadyResolved
  | danglingAlias _ _ => .danglingAlias
  | missingLength _ _ | notArray _ | lengthSymbols _ _ => .arrayLength

/-- The error says that the caller broke a rule of path conditions, rather
    than that a value was unfit. -/
def isViolation : ConditionError → Bool
  | resolved _ _ | occupied _ _ | danglingAlias _ _ | missingLength _ _ | notArray _
  | lengthSymbols _ _ => true
  | absentReference | notBoolean _ => false

end ConditionError

instance : Fault ConditionError := ⟨ConditionError.kind, ConditionError.message⟩

/-- Computations on a path condition. What was changed before a failure stays
    changed. -/
abbrev ConditionM := ExceptT ConditionError (StateM PathCondition)

/-- Runs a computation on a path condition. -/
def ConditionM.runOn {α : Type} (m : ConditionM α) (pc : PathCondition) :
    Except ConditionError α × PathCondition :=
  StateT.run (ExceptT.run m) pc

namespace PathCondition

/-- The number of clauses. -/
def size (pc : PathCondition) : Nat :=
  pc.clauses.length

/-- The clause that resolves the reference with a number. -/
def resolvingClause? (pc : PathCondition) (number : Nat) : Option Clause :=
  (pc.resolved.lookup number).bind (pc.clauses[·]?)

/-- How the reference with a number was resolved. The symbol is the one that
    was resolved. -/
def resolution? (pc : PathCondition) (number : Nat) : Option (RefSymbol × Resolution) :=
  (pc.resolvingClause? number).bind Clause.resolution?

/-- The clause that created the object at a position. -/
def expandingClause? (pc : PathCondition) (position : Int) : Option Clause :=
  (pc.expanded.lookup position).bind (pc.clauses[·]?)

/-- The reference the object at a position was created for, with the
    resolution that created it. -/
def expansion? (pc : PathCondition) (position : Int) : Option (RefSymbol × Resolution) :=
  (pc.expandingClause? position).bind Clause.resolution?

/-- The conditions assumed on primitive values, in order. -/
def conditions (pc : PathCondition) : List Term :=
  pc.clauses.filterMap Clause.condition?

/-- A path condition as it is shown. -/
def text (pc : PathCondition) : String :=
  if pc.clauses.isEmpty then "true"
  else String.intercalate " && " (pc.clauses.map Clause.text)

/-- A condition that is there and boolean. -/
def checkBoolean : Option Term → ConditionM Term
  | some t => if t.type = .boolean then pure t else throw (.notBoolean (some t))
  | none => throw (.notBoolean none)

/-- A reference that is there and not resolved yet. -/
def checkUnresolved : Option RefSymbol → ConditionM RefSymbol
  | none => throw .absentReference
  | some ref => do
    match (← get).resolvingClause? ref.number with
    | some earlier => throw (.resolved ref earlier)
    | none => return ref

/-- Adds a clause at the end. -/
def append (c : Clause) : ConditionM Unit :=
  modify fun pc => { pc with clauses := pc.clauses ++ [c] }

/-- Adds the clause that resolves a reference, and its place to the index. -/
def appendResolving (ref : RefSymbol) (how : Resolution) : ConditionM Unit := do
  modify fun pc => { pc with resolved := (ref.number, pc.size) :: pc.resolved }
  append (.resolve ref how)

/-- Assumes a condition. -/
def assume (condition : Option Term) : ConditionM Unit := do
  append (.assume (← checkBoolean condition))

/-- Assumes that a reference is null. -/
def assumeNull (ref : Option RefSymbol) : ConditionM Unit := do
  appendResolving (← checkUnresolved ref) .null

/-- Resolves a reference to the object created for it at a position. -/
def expand (ref : Option RefSymbol) (position : Int) (type : String) : ConditionM Unit := do
  let ref ← checkUnresolved ref
  match (← get).expandingClause? position with
  | some earlier => throw (.occupied position earlier)
  | none =>
    modify fun pc => { pc with expanded := (position, pc.size) :: pc.expanded }
    appendResolving ref (.fresh position type)

/-- Assumes that a reference points to an object created for it. -/
def assumeExpands (ref : Option RefSymbol) (position : Int) (type : String) : ConditionM Unit :=
  if Descriptor.isArray type then throw (.missingLength ref type) else expand ref position type

/-- The condition on the length of an array: boolean and about one symbol. -/
def checkLength (condition : Option Term) : ConditionM Term := do
  let c ← checkBoolean condition
  if c.symbols.length = 1 then return c else throw (.lengthSymbols c c.symbols.length)

/-- Assumes that a reference points to an array created for it, and the
    condition on the array's length right after. -/
def assumeExpandsArray (ref : Option RefSymbol) (position : Int) (type : String)
    (length : Option Term) : ConditionM Unit :=
  if !Descriptor.isArray type then throw (.notArray type)
  else do
    let c ← checkLength length
    expand ref position type
    append (.assume c)

/-- Assumes that a reference points to an object created earlier. -/
def assumeAliases (ref : Option RefSymbol) (position : Int) : ConditionM Unit := do
  let ref ← checkUnresolved ref
  match (← get).expandingClause? position with
  | some _ => appendResolving ref (.aliasOf position)
  | none => throw (.danglingAlias ref position)

/-- Assumes that a class was initialised before the path began. -/
def assumeInitialized (type : String) : ConditionM Unit :=
  append (.initialized type)

end PathCondition

end PathWitness
