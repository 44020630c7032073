import PathWitness.Expression.Parse
import PathWitness.Resolution
import PathWitness.Scenario
import PathWitness.Text.Replace

/-!
# Executing Scripts

A script is executed step by step on the paths that are still active. A step
that resolves a reference to everything it can be makes several paths out of
one; a path on which it can be nothing is dropped. A path that applies a step
to null ends with an exception.

Resolving references fires rules, whose methods have bodies made of steps.
Inside a body the texts `$target` and `$param` stand for the origin of the
target and the parameter of the rule. A body can neither end nor branch a
path, and bodies are nested to a limited depth.

## Main definitions

* `StepError`: Why a step fails.
* `Action.perform`: An action that neither ends nor branches a path.
* `Scenario.invoker`: Runs the bodies of methods.
* `Step.execute`: A step of a script on one path.
* `Script.execute`: All steps of a script.
-/

namespace PathWitness

/-- Why a step fails. Of the failure of a method that a rule ran, the wording
    and the kind are kept. -/
inductive StepError where
  /-- An origin is malformed. -/
  | origin (error : OriginError)
  /-- A value cannot be read. -/
  | lookup (error : LookupError)
  /-- An expression is wrong. -/
  | expression (error : Expression.ExprError LookupError)
  /-- What is to be resolved is not a symbolic reference. -/
  | notSymbolic (origin : Origin) (value : Option Value)
  /-- The target of an alias is not a reference. -/
  | notReference (origin : Origin) (value : Option Value)
  /-- The target of an alias is not resolved. -/
  | deref (error : HeapError)
  /-- The target of an alias is null. -/
  | nullTarget (origin : Origin)
  /-- A word does not say how to resolve a reference. -/
  | unknownManner (word : String)
  /-- A reference cannot be resolved. -/
  | resolve (error : ResolveError Failure)
  /-- A path cannot branch. -/
  | branch (error : BranchError Failure)
  /-- The state does not allow it. -/
  | access (error : AccessError)
  /-- What is assumed is not a condition. -/
  | notCondition (text : String) (value : Option Value)
  /-- The path condition refuses the assumption. -/
  | condition (error : ConditionError)
  /-- The exception cannot be thrown. -/
  | exception (error : ThrowError)
  /-- A method that a rule runs cannot end the path with a value. -/
  | returnInTrigger
  /-- A method that a rule runs cannot end the path with an exception. -/
  | throwInTrigger
  /-- A method that a rule runs cannot branch the path. -/
  | branchInTrigger

namespace StepError

/-- A value in a message, which may be absent. -/
def shown (v : Option Value) : String :=
  (v.map Value.text).getD "<nil>"

/-- The wording of a step error. -/
def message : StepError → String
  | origin e => e.message
  | lookup e => e.message
  | expression e => e.message
  | notSymbolic o v => o.text ++ " holds " ++ shown v ++ ", not a symbolic reference"
  | notReference o v => "alias target " ++ o.text ++ " holds " ++ shown v
  | deref e => e.message
  | nullTarget o => "alias target " ++ o.text ++ " is null"
  | unknownManner w => "unknown resolution " ++ Text.quoted w
  | resolve e => e.message
  | branch e => e.message
  | access e => e.message
  | notCondition s v =>
    "assume " ++ Text.quoted s ++ ": " ++ shown v ++ " is not a boolean condition"
  | condition e => e.message
  | exception e => e.message
  | returnInTrigger => "trigger methods cannot return a path result"
  | throwInTrigger => "trigger methods cannot throw"
  | branchInTrigger => "trigger methods cannot branch"

/-- The kind of a step error. -/
def kind : StepError → ErrorKind
  | lookup e => e.kind
  | expression e => e.kind
  | deref e => e.kind
  | resolve e => e.kind
  | branch e => e.kind
  | access e => e.kind
  | condition e => e.kind
  | exception e => e.kind
  | _ => .error

end StepError

instance : Fault StepError := ⟨StepError.kind, StepError.message⟩

/-- The origin a text stands for. -/
def originAt (text : String) : TraceM StepError Origin :=
  TraceM.ofExcept .origin (Origin.parse text)

/-- The value at an origin. -/
def valueAt (o : Origin) : TraceM StepError (Option Value) :=
  TraceM.ofPath .lookup (PathState.lookup o)

/-- The value of an expression on a path. -/
def evaluate (source : String) : TraceM StepError (Option Value) :=
  TraceM.ofPath .expression
    (ExceptT.mk (Expression.parse (fun o => (PathState.lookup o).run) source))

/-- The symbolic reference at an origin. -/
def symbolicAt (text : String) : TraceM StepError RefSymbol := do
  let o ← originAt text
  match ← valueAt o with
  | some (.ref (.symbolic r)) => return r
  | v => throw (.notSymbolic o v)

/-- The position of the object at an origin. -/
def positionAt (text : String) : TraceM StepError Int := do
  let o ← originAt text
  match ← valueAt o with
  | some (.ref r) =>
    match ← TraceM.ofExcept .deref ((← TraceM.state).deref r) with
    | .null => throw (.nullTarget o)
    | .object p => return p
  | v => throw (.notReference o v)

namespace Action

/-- The action with its texts changed. -/
def mapTexts (f : String → String) : Action → Action
  | resolve o (.expand c) => resolve (f o) (.expand (f c))
  | resolve o (.aliasOf t) => resolve (f o) (.aliasOf (f t))
  | resolve o (.any l) => resolve (f o) (.any (l.map f))
  | resolve o how => resolve (f o) how
  | assume c => assume (f c)
  | giveBack e => giveBack (e.map f)
  | raise c => raise (f c)
  | idle => idle

/-- Assumes a condition. -/
def performAssume (text : String) : TraceM StepError Unit := do
  TraceM.ofExcept .access (← TraceM.state).checkActive
  match ← evaluate text with
  | some (.term t) => TraceM.onCondition .condition (PathCondition.assume (some t))
  | v => throw (.notCondition text v)

/-- Resolves a reference in one way. -/
def performResolve (env : Environment Failure) (ref : RefSymbol) : Manner → TraceM StepError Unit
  | .null => settle .null
  | .expand className => settle (.expand className)
  | .aliasOf target => do settle (.aliasOf (← positionAt target))
  | .any _ => throw .branchInTrigger
  | .unknown word => throw (.unknownManner word)
where
  /-- Resolves the reference. -/
  settle (c : Candidate) : TraceM StepError Unit := do
    let _ ← (env.resolve ref c).mapError .resolve

/-- Performs an action of a body: one that neither ends nor branches the
    path. -/
def perform (env : Environment Failure) : Action → TraceM StepError Unit
  | resolve o how => do performResolve env (← symbolicAt o) how
  | assume c => performAssume c
  | giveBack _ => throw .returnInTrigger
  | raise _ => throw .throwInTrigger
  | idle => pure ()

end Action

/-- Why the body of a method cannot be run. -/
inductive TriggerError where
  /-- The method has no body. -/
  | noBody (method : Signature)
  /-- Bodies are nested too deeply. -/
  | tooDeep (method : Signature)
  /-- The state cannot be read. -/
  | access (error : AccessError)
  /-- Nothing was expanded to the target. -/
  | noOrigin (target : Target)
  /-- A step of the body failed. -/
  | step (name : String) (index : Nat) (error : StepError)

namespace TriggerError

/-- How deeply bodies are nested at most. -/
def maxDepth : Nat := 16

/-- The wording of a trigger error. -/
def message : TriggerError → String
  | noBody m => "no body for trigger method " ++ m.text
  | tooDeep m => "trigger " ++ m.text ++ " nested deeper than " ++ toString maxDepth
  | access e => e.message
  | noOrigin t => "no object at heap position: trigger target " ++ t.text ++ " has no origin"
  | step name i e => "trigger " ++ name ++ " step " ++ toString i ++ ": " ++ e.message

/-- The kind of a trigger error. -/
def kind : TriggerError → ErrorKind
  | noBody _ | tooDeep _ => .error
  | access e => e.kind
  | noOrigin _ => .noObject
  | step _ _ e => e.kind

end TriggerError

instance : Fault TriggerError := ⟨TriggerError.kind, TriggerError.message⟩

/-- An error of which only the wording and the kind are kept. -/
def Failure.ofFault {ε : Type} [Fault ε] (e : ε) : Failure :=
  ⟨Fault.kind e, Fault.message e⟩

/-- What stands for the texts of a body: the origin of the target, which null
    does not have, and the parameter of the rule. -/
structure Binding where
  /-- The origin of the target. -/
  target : Option String
  /-- The parameter of the rule. -/
  parameter : String
  deriving Repr, DecidableEq

/-- Puts what they stand for in place of the texts of a body, first the origin and then
    the parameter. The order shows only if the origin of the target holds `$param` or the
    parameter `$target`; then another order would be as good, and nothing here depends on
    it. -/
def Binding.apply (b : Binding) (s : String) : String :=
  let s := match b.target with
    | some t => Text.replaceAll s "$target" t
    | none => s
  Text.replaceAll s "$param" b.parameter

/-- The origin of a target: that of the reference which was expanded to it. -/
def targetOrigin (s : PathState) : Target → Except TriggerError (Option String)
  | .null => .ok none
  | .object p =>
    match s.checkReadable with
    | .error e => .error (.access e)
    | .ok () =>
      match s.condition.expansion? p with
      | some (ref, _) => .ok (some ref.origin.path)
      | none => .error (.noOrigin (.object p))

/-- Performs the steps of a body, the first of which has the given index. -/
def performBody (env : Environment Failure) (b : Binding) (name : String) :
    Nat → List Step → TraceM TriggerError Unit
  | _, [] => pure ()
  | i, s :: rest => do
    ((s.action.mapTexts b.apply).perform env).mapError (.step name i)
    performBody env b name (i + 1) rest

namespace Scenario

/-- Runs the bodies of methods, of which so many more may be nested. -/
def invoker (s : Scenario) (classes : ClassTable) (rules : RuleTable) : Nat → Invoker Failure
  | depth, method, target, parameter => TraceM.mapError Failure.ofFault do
    match s.triggers.lookup method.name with
    | none => throw (.noBody method)
    | some steps =>
      match depth with
      | 0 => throw (.tooDeep method)
      | n + 1 =>
        let origin ← TraceM.ofExcept id (targetOrigin (← TraceM.state) target)
        performBody ⟨classes, rules, some (s.invoker classes rules n)⟩ ⟨origin, parameter⟩
          method.name 0 steps

/-- What resolving references depends on in a scenario. -/
def environment (s : Scenario) (classes : ClassTable) (rules : RuleTable) : Environment Failure :=
  ⟨classes, rules, some (s.invoker classes rules TriggerError.maxDepth)⟩

end Scenario

/-- The exception of a path that applies a step to null. -/
def nullPointerException : String := "java/lang/NullPointerException"

namespace Action

/-- One successor for every way in which the reference at an origin can be
    resolved; none if there is no way. -/
def split (env : Environment Failure) (origin : String) (notNull : List String) :
    TraceM StepError (List PathState) := do
  let ref ← symbolicAt origin
  let notNull ← notNull.mapM originAt
  let s ← TraceM.state
  let candidates ← TraceM.ofExcept .access (env.candidates s ref notNull)
  let (result, journal) := env.branch s ref candidates (← get).journal
  modify fun session => { session with journal := journal }
  match result with
  | .ok next => return next
  | .error e =>
    if e.kind == .contradiction then
      TraceM.record (.abandoned s.id e.message)
      return []
    else throw (.branch e)

/-- The paths after an action on a path. -/
def advance (env : Environment Failure) : Action → TraceM StepError (List PathState)
  | resolve o (.any notNull) => split env o notNull
  | giveBack e => do
    let v ← match e with
      | some source => evaluate source
      | none => pure none
    return [← TraceM.ofExcept .access ((← TraceM.state).returnValue v)]
  | raise className => do
    let (_, s) ← TraceM.ofExcept .exception ((← TraceM.state).throwException className)
    return [s]
  | a => do
    a.perform env
    return [← TraceM.state]

end Action

/-- A step of a script on one path. A path that applies a step to null ends
    with an exception. -/
def Step.execute (env : Environment Failure) (step : Step) : TraceM StepError (List PathState) :=
  tryCatch (step.action.advance env) fun e => do
    if e.kind == .nullDereference then
      let s ← TraceM.state
      TraceM.record (.excepted s.id e.message nullPointerException)
      let (_, s) ← TraceM.ofExcept .exception (s.throwException nullPointerException)
      return [s]
    else throw e

/-- A step of a script on all paths, of which only the active ones go on. -/
def Step.executeEach (env : Environment Failure) (step : Step) :
    List PathState → Journal → Except StepError (List PathState) × Journal
  | [], j => (.ok [], j)
  | s :: rest, j =>
    let (first, j) :=
      if s.status == .active then
        let (r, session) := (step.execute env).runOn ⟨s, j⟩
        (r, session.journal)
      else (.ok [s], j)
    match first with
    | .error e => (.error e, j)
    | .ok first =>
      match step.executeEach env rest j with
      | (.error e, j) => (.error e, j)
      | (.ok others, j) => (.ok (first ++ others), j)

/-- Why a script does not lead through the method. -/
inductive ScriptError where
  /-- The method cannot be entered. -/
  | entry (error : EntryError)
  /-- A step fails. -/
  | step (index : Nat) (kind : String) (error : StepError)
  /-- A path has not ended. -/
  | unfinished (id : PathId)

namespace ScriptError

/-- The wording of a script error. -/
def message : ScriptError → String
  | entry e => e.message
  | step i k e => "step " ++ toString i ++ " (" ++ k ++ "): " ++ e.message
  | unfinished id => "state " ++ id.text ++ " did not return or throw"

/-- The kind of a script error. -/
def kind : ScriptError → ErrorKind
  | entry e => e.kind
  | step _ _ e => e.kind
  | unfinished _ => .error

end ScriptError

instance : Fault ScriptError := ⟨ScriptError.kind, ScriptError.message⟩

/-- Steps on all paths, the first of which has the given index. -/
def executeSteps (env : Environment Failure) :
    Nat → List Step → List PathState → Journal → Except ScriptError (List PathState) × Journal
  | _, [], paths, j => (.ok paths, j)
  | i, step :: rest, paths, j =>
    match step.executeEach env paths j with
    | (.error e, j) => (.error (.step i step.kindText e), j)
    | (.ok paths, j) => executeSteps env (i + 1) rest paths j

/-- All steps of a script, from the entry of the method. Every path must have
    ended. -/
def Script.execute (env : Environment Failure) (script : Script) (entry : PathState) (j : Journal) :
    Except ScriptError (List PathState) × Journal :=
  match executeSteps env 0 script.steps [entry] j with
  | (.error e, j) => (.error e, j)
  | (.ok paths, j) =>
    match paths.find? (·.status == .active) with
    | some s => (.error (.unfinished s.id), j)
    | none => (.ok paths, j)

/-- The state in which the script with an index enters the method. -/
def Scenario.entryState (s : Scenario) (index : Nat) : Except ScriptError PathState :=
  match PathState.enter s.method s.isStatic s.parameters with
  | .error e => .error (.entry e)
  | .ok state => .ok (state.withId ("." ++ toString (index + 1)) 0)

end PathWitness
