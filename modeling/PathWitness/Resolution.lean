import PathWitness.ClassTable
import PathWitness.Journal
import PathWitness.PathState.Lookup
import PathWitness.Term.Typing

/-!
# Resolving References

A symbolic reference is resolved when a path first needs to know what it
points to: to null, to an object that another reference was expanded to, or to
a new object whose fields are symbols of their own. A reference that has been
resolved stays resolved, and asking again gives the same target.

Resolving a reference fires the rules that wait for it. A rule is recorded as
fired before its method runs, so a method that resolves further references
never makes a rule fire twice on the same target.

## Main definitions

* `TraceM`: Computations on a path that keep a journal.
* `Environment`: Classes, rules and the way to run the methods of rules.
* `Environment.fire`, `Environment.fireMatching`: Firing rules.
* `Candidate`: A way to resolve a reference.
* `Environment.resolve`: Resolves a reference on a path.
* `Environment.candidates`: The ways in which a reference can be resolved.
* `Environment.branch`: One successor for every way.
-/

namespace PathWitness

/-- A path under execution and the journal of what happened. -/
structure Session where
  /-- The state of the path. -/
  state : PathState
  /-- What happened, the latest first. -/
  journal : Journal := []

/-- Computations on a path that keep a journal. What was changed and what was
    written before a failure stays. -/
abbrev TraceM (ε : Type) := ExceptT ε (StateM Session)

namespace TraceM

variable {ε ε' α : Type}

/-- Runs a computation on a session. -/
def runOn (m : TraceM ε α) (s : Session) : Except ε α × Session :=
  StateT.run (ExceptT.run m) s

/-- A result that does not touch the session. -/
def ofExcept (inject : ε → ε') (r : Except ε α) : TraceM ε' α :=
  match r with
  | .ok a => pure a
  | .error e => throw (inject e)

/-- A computation with other errors. -/
def mapError (inject : ε → ε') (m : TraceM ε α) : TraceM ε' α :=
  ExceptT.mk fun s =>
    match m.runOn s with
    | (.ok a, s) => (.ok a, s)
    | (.error e, s) => (.error (inject e), s)

/-- A computation on the state alone. -/
def ofPath (inject : ε → ε') (m : PathM ε α) : TraceM ε' α :=
  ExceptT.mk fun s =>
    match m.runOn s.state with
    | (.ok a, state) => (.ok a, { s with state := state })
    | (.error e, state) => (.error (inject e), { s with state := state })

/-- A computation on the path condition alone. -/
def onCondition (inject : ConditionError → ε) (m : ConditionM α) : TraceM ε α :=
  ExceptT.mk fun s =>
    match m.runOn s.state.condition with
    | (.ok a, pc) => (.ok a, { s with state := { s.state with condition := pc } })
    | (.error e, pc) => (.error (inject e), { s with state := { s.state with condition := pc } })

/-- The state of the path. -/
def state : TraceM ε PathState := do
  return (← get).state

/-- Puts another state in place of the state of the path. -/
def setState (state : PathState) : TraceM ε Unit :=
  modify fun s => { s with state := state }

/-- Writes an event into the journal. -/
def record (e : Event) : TraceM ε Unit :=
  modify fun s => { s with journal := e :: s.journal }

end TraceM

/-- Why a rule could not be fired. The method that a rule runs can fail in a
    way of its own. -/
inductive FireError (τ : Type) where
  /-- The rule has fired on the target before. -/
  | alreadyFired (rule : Rule) (target : Target)
  /-- The state cannot be changed. -/
  | access (error : AccessError)
  /-- There is no way to run methods. -/
  | noInvoker (method : Signature)
  /-- The method failed. -/
  | trigger (method : Signature) (cause : τ)

/-- The wording of a fire error. -/
def FireError.message {τ : Type} [Fault τ] : FireError τ → String
  | alreadyFired r t => "rule already fired: " ++ r.text ++ " on " ++ t.text
  | access e => e.message
  | noInvoker m => "no invoker for trigger " ++ m.text
  | trigger m e => "trigger " ++ m.text ++ ": " ++ Fault.message e

/-- The kind of a fire error. -/
def FireError.kind {τ : Type} [Fault τ] : FireError τ → ErrorKind
  | alreadyFired _ _ => .alreadyFired
  | access e => e.kind
  | noInvoker _ => .error
  | trigger _ e => Fault.kind e

instance {τ : Type} [Fault τ] : Fault (FireError τ) := ⟨FireError.kind, FireError.message⟩

/-- A way to resolve a reference. -/
inductive Candidate where
  /-- The reference is null. -/
  | null
  /-- The reference points to the object at a position. -/
  | aliasOf (position : Int)
  /-- The reference points to a new object of a class; without a class, one of
      the static class of the reference. -/
  | expand (className : String)
  /-- A way that is not known, by its number. -/
  | unknown (number : Int)
  deriving Repr, DecidableEq

namespace Candidate

/-- The word for a way to resolve a reference. -/
def kindName : Candidate → String
  | null => "null"
  | aliasOf _ => "alias"
  | expand _ => "expand"
  | unknown n => "Kind(" ++ toString n ++ ")"

/-- A candidate as it is shown. -/
def text : Candidate → String
  | aliasOf p => "alias Object[" ++ toString p ++ "]"
  | expand c => "expand " ++ c
  | c => c.kindName

end Candidate

/-- Why a reference cannot be resolved in a certain way. -/
inductive ResolveError (τ : Type) where
  /-- The state does not allow it. -/
  | access (error : AccessError)
  /-- The way is not known. -/
  | unknownKind (candidate : Candidate)
  /-- The path condition refuses the assumption. -/
  | condition (error : ConditionError)
  /-- There is no such object. -/
  | heap (error : HeapError)
  /-- The object cannot be used as the static type of the reference. -/
  | incompatibleAlias (ref : RefSymbol) (position : Int) (type : String)
  /-- The class cannot be used as the static type of the reference. -/
  | incompatibleClass (ref : RefSymbol) (className : String)
  /-- The class has no instances. -/
  | abstractClass (className : String)
  /-- The length of an array cannot have a symbol. -/
  | length (error : SymbolError)
  /-- The condition on a length cannot be formed. -/
  | term (error : TermError)
  /-- The array cannot be allocated. -/
  | allocation (error : AllocationError)
  /-- A field of a new object cannot have a symbol. -/
  | field (name className : String) (error : SymbolError)
  /-- A rule failed. -/
  | fire (error : FireError τ)

/-- The wording of a resolve error. -/
def ResolveError.message {τ : Type} [Fault τ] : ResolveError τ → String
  | access e => e.message
  | unknownKind c => "unsupported value kind: candidate kind " ++ c.kindName
  | condition e => e.message
  | heap e => e.message
  | incompatibleAlias ref p type =>
    "incompatible resolution candidate: " ++ ref.id ++ " (" ++ ref.type ++
      ") cannot alias Object[" ++ toString p ++ "]:" ++ type
  | incompatibleClass ref c =>
    "incompatible resolution candidate: " ++ ref.id ++ " (" ++ ref.type ++
      ") cannot expand to " ++ c
  | abstractClass c => "incompatible resolution candidate: " ++ c ++ " is abstract"
  | length e => e.message
  | term e => e.message
  | allocation e => e.message
  | field f c e => "field " ++ f ++ " of " ++ c ++ ": " ++ e.message
  | fire e => e.message

/-- The kind of a resolve error. -/
def ResolveError.kind {τ : Type} [Fault τ] : ResolveError τ → ErrorKind
  | access e => e.kind
  | unknownKind _ => .unsupportedValue
  | condition e => e.kind
  | heap e => e.kind
  | incompatibleAlias _ _ _ | incompatibleClass _ _ | abstractClass _ => .incompatible
  | length e | field _ _ e => e.kind
  | term e => e.kind
  | allocation _ => .error
  | fire e => e.kind

instance {τ : Type} [Fault τ] : Fault (ResolveError τ) := ⟨ResolveError.kind, ResolveError.message⟩

/-- Runs the method of a rule on a target, with the parameter of the rule. -/
abbrev Invoker (τ : Type) := Signature → Target → String → TraceM τ Unit

/-- What resolving references depends on: classes, rules, and a way to run the
    methods of rules. -/
structure Environment (τ : Type) where
  /-- The declared classes. -/
  classes : ClassTable := {}
  /-- The rules. -/
  rules : RuleTable := {}
  /-- Runs the methods of rules. -/
  invoke : Option (Invoker τ) := none

namespace Environment

variable {τ : Type}

/-- Fires a rule on a target and runs its method. -/
def fire (env : Environment τ) (rule : Rule) (o : Origin) (target : Target) :
    TraceM (FireError τ) Unit := do
  let key := rule.firingKey o target
  let s ← TraceM.state
  if s.hasFired key then throw (.alreadyFired rule target)
  TraceM.setState (← TraceM.ofExcept .access (s.markFired key))
  TraceM.record (.fired rule target)
  match env.invoke with
  | none => throw (.noInvoker rule.method)
  | some invoke => (invoke rule.method target rule.parameter).mapError (.trigger rule.method)

/-- Fires those of the rules that have not fired on a target, and counts
    them. -/
def fireEach (env : Environment τ) (o : Origin) (target : Target) :
    List Rule → TraceM (FireError τ) Nat
  | [] => pure 0
  | rule :: rest => do
    if (← TraceM.state).hasFired (rule.firingKey o target) then env.fireEach o target rest
    else
      env.fire rule o target
      return (← env.fireEach o target rest) + 1

/-- Fires the rules that wait for a resolution and have not fired on its
    target, and counts them. -/
def fireMatching (env : Environment τ) (o : Origin) (className : String) (kind : TriggerKind)
    (target : Target) : TraceM (FireError τ) Nat :=
  env.fireEach o target (env.rules.matching o className kind)

/-- Fires the rules that wait for a resolution of a reference. -/
def fireFor (env : Environment τ) (ref : RefSymbol) (className : String) (kind : TriggerKind)
    (target : Target) : TraceM (ResolveError τ) Unit := do
  let _ ← (env.fireMatching ref.origin className kind target).mapError .fire

/-- Resolves a reference to null. -/
def resolveNull (env : Environment τ) (ref : RefSymbol) : TraceM (ResolveError τ) Target := do
  TraceM.onCondition .condition (PathCondition.assumeNull (some ref))
  TraceM.record (.nullified ref)
  env.fireFor ref "" .nulls .null
  return .null

/-- The class that a reference's static type names. -/
def staticClass (ref : RefSymbol) : String :=
  Descriptor.className ref.type

/-- Resolves a reference to an object that is there. -/
def resolveAlias (env : Environment τ) (ref : RefSymbol) (p : Int) :
    TraceM (ResolveError τ) Target := do
  let s ← TraceM.state
  let o ← TraceM.ofExcept .heap (s.heap.get p)
  if !env.classes.isSubclass o.type (staticClass ref) then throw (.incompatibleAlias ref p o.type)
  TraceM.onCondition .condition (PathCondition.assumeAliases (some ref) p)
  TraceM.record (.aliased ref p o.type)
  let target := Target.ofPosition p
  env.fireFor ref o.type .aliases target
  return target

/-- Expands a reference to a new array, whose length is a symbol that is not
    negative. -/
def expandArray (ref : RefSymbol) (type : String) : TraceM (ResolveError τ) Int := do
  let s ← TraceM.state
  let (length, symbols) ←
    TraceM.ofExcept .length (s.symbols.primitive Prim.int.descriptor (ref.origin.push .length))
  TraceM.setState { s with symbols := symbols }
  let condition ← TraceM.ofExcept .term
    (Term.mkBinary (.binary (.comparison .ge)) (some (.symbol length)) (some (.const (.int 0))))
  let (p, heap) ← TraceM.ofExcept .allocation
    (s.heap.allocateArray type ref.origin (some (.symbol length)))
  TraceM.setState { s with symbols := symbols, heap := heap }
  TraceM.onCondition .condition
    (PathCondition.assumeExpandsArray (some ref) p type (some condition))
  return p

/-- Gives the object at a position the fields of its class, each holding a
    symbol reached through the field. -/
def addFields (origin : Origin) (className : String) (p : Int) :
    List FieldDecl → TraceM (ResolveError τ) Unit
  | [] => pure ()
  | f :: rest => do
    let s ← TraceM.state
    let (x, symbols) ← TraceM.ofExcept (.field f.name className)
      (PathState.symbolOf s.symbols f.type (origin.push (.field f.name)))
    let heap ← TraceM.ofExcept .heap (s.heap.write p (.field f.name) (some (.ofSymbol x)))
    TraceM.setState { s with symbols := symbols, heap := heap }
    addFields origin className p rest

/-- Expands a reference to a new object of a class. -/
def expandObject (env : Environment τ) (ref : RefSymbol) (className : String) :
    TraceM (ResolveError τ) Int := do
  let s ← TraceM.state
  let (p, heap) := s.heap.allocate ⟨className, ref.origin, none, []⟩
  TraceM.setState { s with heap := heap }
  TraceM.onCondition .condition (PathCondition.assumeExpands (some ref) p className)
  addFields ref.origin className p (env.classes.fields className)
  return p

/-- Resolves a reference to a new object or array. -/
def resolveExpand (env : Environment τ) (ref : RefSymbol) (className : String) :
    TraceM (ResolveError τ) Target := do
  let className := if className = "" then staticClass ref else className
  if !env.classes.isSubclass className (staticClass ref) then
    throw (.incompatibleClass ref className)
  if env.classes.isAbstract className then throw (.abstractClass className)
  let p ← if Descriptor.isArray className then expandArray ref className
    else env.expandObject ref className
  TraceM.record (.expanded ref p className)
  let target := Target.ofPosition p
  env.fireFor ref className .expands target
  return target

/-- Resolves a reference on a path. A reference that is resolved already keeps
    its target. -/
def resolve (env : Environment τ) (ref : RefSymbol) (c : Candidate) :
    TraceM (ResolveError τ) Target := do
  let s ← TraceM.state
  TraceM.ofExcept .access s.checkReadable
  match s.condition.resolution? ref.number with
  | some (_, how) => return how.target
  | none =>
    TraceM.ofExcept .access s.checkActive
    match c with
    | .null => env.resolveNull ref
    | .aliasOf p => env.resolveAlias ref p
    | .expand className => env.resolveExpand ref className
    | .unknown n => throw (.unknownKind (.unknown n))

/-- The candidate that names what a reference was resolved to. -/
def settledCandidate : Resolution → Candidate
  | .null => .null
  | .fresh p _ => .aliasOf p
  | .aliasOf p => .aliasOf p

/-- The positions of objects that references were expanded to and that can be
    used as a class. -/
def aliasPositions (env : Environment τ) (s : PathState) (className : String) : List Int :=
  s.heap.positions.filter fun p =>
    (s.condition.expansion? p).isSome &&
      match s.heap.get? p with
      | some o => env.classes.isSubclass o.type className
      | none => false

/-- The ways in which a reference can be resolved: null unless that is
    excluded, every fitting object that is there, and every class that can be
    instantiated. The receiver is never null. A reference that is resolved
    already can only be what it is. -/
def candidates (env : Environment τ) (s : PathState) (ref : RefSymbol) (notNull : List Origin) :
    Except AccessError (List Candidate) := do
  s.checkReadable
  match s.condition.resolution? ref.number with
  | some (_, how) => return [settledCandidate how]
  | none =>
    let null :=
      if ref.origin.path != receiverName && !notNull.any (·.same ref.origin) then [.null] else []
    let aliases := (env.aliasPositions s (staticClass ref)).map .aliasOf
    let expansions := (env.classes.instantiable (staticClass ref)).map .expand
    return null ++ aliases ++ expansions

end Environment

/-- Why a path cannot branch on a reference. -/
inductive BranchError (τ : Type) where
  /-- There is no way to resolve the reference. -/
  | contradiction (ref : RefSymbol)
  /-- The state cannot be copied. -/
  | access (error : AccessError)
  /-- One of the ways failed. -/
  | candidate (candidate : Candidate) (error : ResolveError τ)

/-- The wording of a branch error. -/
def BranchError.message {τ : Type} [Fault τ] : BranchError τ → String
  | contradiction ref =>
    "no viable resolution for reference: " ++ ref.id ++ " (" ++ ref.origin.text ++ ")"
  | access e => e.message
  | candidate c e => "candidate " ++ c.text ++ ": " ++ e.message

/-- The kind of a branch error. -/
def BranchError.kind {τ : Type} [Fault τ] : BranchError τ → ErrorKind
  | contradiction _ => .contradiction
  | access e => e.kind
  | candidate _ e => e.kind

instance {τ : Type} [Fault τ] : Fault (BranchError τ) := ⟨BranchError.kind, BranchError.message⟩

/-- The identifier of a successor: with several of them, the branch gets the
    number of the successor, and otherwise the path just goes on. -/
def PathId.successor (id : PathId) (several : Bool) (index : Nat) : PathId :=
  if several then ⟨id.branch ++ "." ++ toString (index + 1), 0⟩
  else ⟨id.branch, id.sequence + 1⟩

namespace Environment

variable {τ : Type}

/-- The successor of a state in which a reference is resolved in one way. -/
def successor (env : Environment τ) (s : PathState) (ref : RefSymbol) (several : Bool)
    (index : Nat) (c : Candidate) (j : Journal) : Except (BranchError τ) PathState × Journal :=
  match s.copy with
  | .error e => (.error (.access e), j)
  | .ok next =>
    let next := { next with id := s.id.successor several index }
    match (env.resolve ref c).runOn ⟨next, j⟩ with
    | (.ok _, ⟨next, j⟩) => (.ok next, j)
    | (.error e, ⟨_, j⟩) => (.error (.candidate c e), j)

/-- The successors for a list of ways, the first of which has the given
    index. -/
def successors (env : Environment τ) (s : PathState) (ref : RefSymbol) (several : Bool) :
    Nat → List Candidate → Journal → Except (BranchError τ) (List PathState) × Journal
  | _, [], j => (.ok [], j)
  | i, c :: rest, j =>
    match env.successor s ref several i c j with
    | (.error e, j) => (.error e, j)
    | (.ok next, j) =>
      match env.successors s ref several (i + 1) rest j with
      | (.error e, j) => (.error e, j)
      | (.ok others, j) => (.ok (next :: others), j)

/-- One successor of a state for every way to resolve a reference. The state
    itself stays as it is. -/
def branch (env : Environment τ) (s : PathState) (ref : RefSymbol) (candidates : List Candidate)
    (j : Journal) : Except (BranchError τ) (List PathState) × Journal :=
  if candidates.isEmpty then (.error (.contradiction ref), j)
  else env.successors s ref (candidates.length > 1) 0 candidates j

end Environment

end PathWitness
