import PathWitness.Descriptor
import PathWitness.Fault
import PathWitness.Symbol
import PathWitness.Text.Fold

/-!
# Trigger Rules

A rule says that a method runs when the reference at an origin is resolved in
a certain way. Rules are checked when a table is made of them, and a rule of a
table carries the number under which it was registered.

## Main definitions

* `TriggerKind`: The resolutions a rule can wait for.
* `RuleSpec`: A rule as it is written down.
* `Rule`: A registered rule.
* `RuleTable.ofList`: Checks and registers rules.
* `RuleTable.matching`: The rules that a resolution triggers.
* `Rule.firingKey`: What identifies a firing.
-/

namespace PathWitness

/-- The resolutions a rule can wait for. -/
inductive TriggerKind where
  /-- The reference is expanded to a new object of a class. -/
  | expands
  /-- The reference becomes an alias. -/
  | aliases
  /-- The reference is null. -/
  | nulls
  deriving Repr, DecidableEq

namespace TriggerKind

/-- All kinds, in the order of their numbers. -/
def all : List TriggerKind := [expands, aliases, nulls]

/-- The number of a kind; 0 is no kind. -/
def number : TriggerKind → Int
  | expands => 1
  | aliases => 2
  | nulls => 3

/-- The kind with a number. -/
def ofNumber? (n : Int) : Option TriggerKind :=
  all.find? (·.number == n)

/-- The name of a kind. -/
def name : TriggerKind → String
  | expands => "expands"
  | aliases => "aliases"
  | nulls => "nulls"

/-- The name of the kind with a number, or the number itself. -/
def nameOfNumber (n : Int) : String :=
  match ofNumber? n with
  | some k => k.name
  | none => "Kind(" ++ toString n ++ ")"

/-- The kind a word stands for. -/
def ofWord? (s : String) : Option TriggerKind :=
  if Text.sameWord s "null" then some nulls else all.find? fun k => Text.sameWord s k.name

end TriggerKind

/-- A word that names no kind of rule. -/
structure UnknownKind where
  /-- The word. -/
  word : String
  deriving Repr, DecidableEq

/-- The wording of an unknown kind. -/
def UnknownKind.message (e : UnknownKind) : String :=
  "unknown rule kind " ++ Text.quoted e.word

instance : Fault UnknownKind := ⟨fun _ => .error, UnknownKind.message⟩

/-- The kind a word stands for, or why there is none. -/
def TriggerKind.ofWord (s : String) : Except UnknownKind TriggerKind :=
  match ofWord? s with
  | some k => .ok k
  | none => .error ⟨s⟩

/-- A rule as it is written down. -/
structure RuleSpec where
  /-- The resolution waited for. -/
  kind : Option TriggerKind := none
  /-- The text of the origin. -/
  origin : String := ""
  /-- The class an expansion must be to. -/
  className : String := ""
  /-- The method to run. -/
  method : Signature := {}
  /-- A text handed to the method. -/
  parameter : String := ""
  deriving Repr, DecidableEq, Inhabited

/-- A registered rule. -/
structure Rule where
  /-- The number of the rule in its table. -/
  id : Nat
  /-- The resolution waited for. -/
  kind : TriggerKind
  /-- The origin of the reference. -/
  origin : Origin
  /-- The class an expansion must be to. -/
  className : String
  /-- The method to run. -/
  method : Signature
  /-- A text handed to the method. -/
  parameter : String
  deriving Repr, DecidableEq

/-- What is wrong with a rule. -/
inductive RuleFault where
  /-- The origin is malformed. -/
  | origin (error : OriginError)
  /-- There is no kind. -/
  | noKind (origin : Origin)
  /-- An expansion rule names no class. -/
  | noClass (origin : Origin)
  /-- The method has no class or no name. -/
  | noMethod (origin : Origin)
  /-- The descriptor of the method is malformed. -/
  | descriptor (origin : Origin) (error : DescriptorError)
  deriving Repr, DecidableEq

/-- A fault with the number of the rule that has it. -/
structure RuleError where
  /-- The number of the rule. -/
  index : Nat
  /-- What is wrong with it. -/
  fault : RuleFault
  deriving Repr, DecidableEq

/-- The wording of a rule error. -/
def RuleError.message (e : RuleError) : String :=
  "rule " ++ toString e.index ++
    match e.fault with
    | .origin o => ": " ++ o.message
    | .noKind o => " (" ++ o.text ++ "): missing or invalid kind " ++ TriggerKind.nameOfNumber 0
    | .noClass o => " (" ++ o.text ++ "): expansion rule without a class"
    | .noMethod o => " (" ++ o.text ++ "): missing trigger method"
    | .descriptor o d => " (" ++ o.text ++ "): " ++ d.message

instance : Fault RuleError := ⟨fun _ => .error, RuleError.message⟩

/-- Checks a rule and registers it under a number. -/
def RuleSpec.check (r : RuleSpec) (id : Nat) : Except RuleFault Rule :=
  match Origin.parse r.origin with
  | .error e => .error (.origin e)
  | .ok o =>
    match r.kind with
    | none => .error (.noKind o)
    | some kind =>
      if kind = .expands && r.className = "" then .error (.noClass o)
      else if r.method.name = "" || r.method.className = "" then .error (.noMethod o)
      else
        match Descriptor.parameters r.method.descriptor with
        | .error e => .error (.descriptor o e)
        | .ok _ => .ok ⟨id, kind, o, r.className, r.method, r.parameter⟩

namespace Rule

/-- What a rule waits for, as it is shown after the origin. -/
def conditionText (r : Rule) : String :=
  match r.kind with
  | .expands => " expands to instanceof " ++ r.className
  | .aliases => " aliases target"
  | .nulls => " null"

/-- A rule as it is shown. -/
def text (r : Rule) : String :=
  r.origin.text ++ r.conditionText ++ " triggers " ++ r.method.text ++
    (if r.parameter = "" then "" else ":" ++ r.parameter)

/-- The rule as it could be written down again. -/
def spec (r : Rule) : RuleSpec :=
  ⟨some r.kind, r.origin.text, r.className, r.method, r.parameter⟩

/-- What identifies a firing: the rule, the origin and the position of the
    target. -/
def firingKey (r : Rule) (o : Origin) (target : Target) : String :=
  toString r.id ++ "|" ++ o.text ++ "|" ++ toString target.position

/-- The rule waits for this resolution. Only an expansion looks at the
    class. -/
def accepts (r : Rule) (className : String) (kind : TriggerKind) : Bool :=
  r.kind == kind && (kind != .expands || r.className == className)

end Rule

/-- Registered rules, in the order of their registration. -/
structure RuleTable where
  /-- The rules; the number of each is its position. -/
  rules : List Rule := []
  deriving Repr, DecidableEq, Inhabited

namespace RuleTable

/-- The number of rules. -/
def size (t : RuleTable) : Nat :=
  t.rules.length

/-- Registers one more rule. -/
def register (t : RuleTable) (r : RuleSpec) : Except RuleError RuleTable :=
  match r.check t.size with
  | .ok rule => .ok ⟨t.rules ++ [rule]⟩
  | .error f => .error ⟨t.size, f⟩

/-- Checks and registers rules. -/
def ofList (rules : List RuleSpec) : Except RuleError RuleTable :=
  rules.foldlM register {}

/-- The rules about an origin. -/
def forOrigin (t : RuleTable) (o : Origin) : List Rule :=
  t.rules.filter (·.origin.text == o.text)

/-- The rules that a resolution triggers, in the order of registration. -/
def matching (t : RuleTable) (o : Origin) (className : String) (kind : TriggerKind) :
    List Rule :=
  (t.forOrigin o).filter (·.accepts className kind)

end RuleTable

end PathWitness
