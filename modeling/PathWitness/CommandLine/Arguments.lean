import PathWitness.Literal
import PathWitness.Settings

/-!
# Command-Line Arguments

Flags and files may be mixed. A long flag has its value after an equals sign
or in the next argument; a flag of one letter may have it directly behind it
too, and several such flags may be written together. A truth value need not be
written. After two dashes all arguments are files.

## Main definitions

* `Flag`: What can be said on the command line.
* `Arguments`: What was said.
* `Arguments.parse`: Reads the arguments.
* `Arguments.override`: The settings with what was said.
-/

namespace PathWitness

/-- What can be said on the command line. -/
inductive Flag where
  | config
  | rules
  | output
  | className
  | solver
  | workers
  | verbose
  deriving Repr, DecidableEq

namespace Flag

/-- The flag with a name. -/
def ofName? : String → Option Flag
  | "config" => some config
  | "rules" => some rules
  | "output" => some output
  | "class" => some className
  | "solver" => some solver
  | "workers" => some workers
  | "verbose" => some verbose
  | _ => none

/-- The flag with a letter. -/
def ofLetter? : Char → Option Flag
  | 'c' => some config
  | 'r' => some rules
  | 'o' => some output
  | 'w' => some workers
  | 'v' => some verbose
  | _ => none

/-- The value of a flag that is written without one. -/
def impliedValue? : Flag → Option String
  | verbose => some "true"
  | _ => none

end Flag

/-- What was said on the command line. -/
structure Arguments where
  /-- The file with settings; empty for none. -/
  config : String := ""
  /-- The file with rules, if it was named. -/
  rules : Option String := none
  /-- The file that tests are written to, if it was named. -/
  output : Option String := none
  /-- The name of the test class. -/
  className : String := ""
  /-- The strategy of the search. -/
  solver : String := ""
  /-- How many tests are written at the same time. -/
  workers : Int := 0
  /-- Tells everything that happens. -/
  verbose : Bool := false
  /-- The files with scenarios. -/
  files : List String := []
  deriving Repr, DecidableEq, Inhabited

/-- Why there is nothing to run. -/
inductive Refusal where
  /-- Help was asked for. -/
  | help
  /-- The arguments cannot be understood. -/
  | misused
  deriving Repr, DecidableEq

namespace Arguments

/-- Gives a flag a value. -/
def assign (a : Arguments) (flag : Flag) (value : String) : Except Refusal Arguments :=
  match flag with
  | .config => .ok { a with config := value }
  | .rules => .ok { a with rules := some value }
  | .output => .ok { a with output := some value }
  | .className => .ok { a with className := value }
  | .solver => .ok { a with solver := value }
  | .workers =>
    match Number.parseInteger value.toList with
    | .ok n => .ok { a with workers := n.toInt }
    | .error _ => .error .misused
  | .verbose =>
    match truthOfWord? value with
    | some b => .ok { a with verbose := b }
    | none => .error .misused

/-- What follows an argument: nothing more of it, or a flag that takes the
    next argument as its value. -/
structure Pending where
  /-- What was said so far. -/
  arguments : Arguments
  /-- A flag without its value. -/
  flag : Option Flag := none

/-- A flag that was written without a value. -/
def awaitValue (a : Arguments) (flag : Flag) : Except Refusal Pending :=
  match flag.impliedValue? with
  | some value => do return ⟨← a.assign flag value, none⟩
  | none => .ok ⟨a, some flag⟩

/-- Reads a flag by its name, without the dashes. -/
def readLong (a : Arguments) (cs : List Char) : Except Refusal Pending :=
  let name := String.ofList (cs.takeWhile (· != '='))
  if name = "" || cs.head? == some '-' then .error .misused
  else
    match Flag.ofName? name with
    | none => .error (if name = "help" then .help else .misused)
    | some flag =>
      match cs.dropWhile (· != '=') with
      | _ :: value => do return ⟨← a.assign flag (String.ofList value), none⟩
      | [] => a.awaitValue flag

/-- Reads flags by their letters, without the dash. An argument that starts
    like a flag of a test run is passed over. -/
def readShort (a : Arguments) : List Char → Except Refusal Pending
  | [] => .ok ⟨a, none⟩
  | c :: rest =>
    if "test.".toList.isPrefixOf (c :: rest) then .ok ⟨a, none⟩
    else
      match Flag.ofLetter? c with
      | none => .error (if c == 'h' then .help else .misused)
      | some flag =>
        match rest with
        | [] => a.awaitValue flag
        | '=' :: d :: value => do return ⟨← a.assign flag (String.ofList (d :: value)), none⟩
        | rest =>
          match flag.impliedValue? with
          | some value => do
            let a ← a.assign flag value
            a.readShort rest
          | none => do return ⟨← a.assign flag (String.ofList rest), none⟩

/-- Reads arguments, of which the first may be the value of a flag. -/
def readFrom (p : Pending) : List String → Except Refusal Arguments
  | [] => if p.flag.isSome then .error .misused else .ok p.arguments
  | s :: rest => do
    let a := p.arguments
    match p.flag with
    | some flag => readFrom ⟨← a.assign flag s, none⟩ rest
    | none =>
      match s.toList with
      | ['-', '-'] => .ok { a with files := a.files ++ rest }
      | '-' :: '-' :: cs => readFrom (← a.readLong cs) rest
      | '-' :: c :: cs => readFrom (← a.readShort (c :: cs)) rest
      | _ => readFrom ⟨{ a with files := a.files ++ [s] }, none⟩ rest

/-- Reads the arguments of a command line. -/
def parse (args : List String) : Except Refusal Arguments :=
  readFrom ⟨{}, none⟩ args

/-- The settings with what was said. A file that was named counts even if its
    name is empty; other texts count if they are not. -/
def override (a : Arguments) (s : Settings) : Settings :=
  { s with
    rules := a.rules.getD s.rules
    output := a.output.getD s.output
    className := if a.className = "" then s.className else a.className
    search :=
      { s.search with strategy := if a.solver = "" then s.search.strategy else a.solver }
    workers := if 0 < a.workers then a.workers else s.workers
    verbose := a.verbose || s.verbose }

end Arguments

end PathWitness
