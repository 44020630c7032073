import PathWitness.Fault
import PathWitness.Text.Octet
import PathWitness.Text.Quoted

/-!
# Origins

An origin says how a value is reached: from a root (a parameter, or the
receiver) through fields, array elements and array lengths. A symbolic value
is identified by its origin, so the text of an origin serves both as a name
for readers and as the key under which symbols, rules and slots are found.

## Main definitions

* `Accessor`: One step of an origin.
* `Origin`: A root and the steps taken from it.
* `Origin.text`: The text that identifies an origin.
* `Origin.parse`: Reads an origin from its text.
-/

namespace PathWitness

/-- One step of an origin. -/
inductive Accessor where
  /-- A field by name. -/
  | field (name : String)
  /-- An array element; the index stays as it was written. -/
  | index (text : String)
  /-- The length of an array. -/
  | length
  deriving Repr, DecidableEq

/-- An accessor as it is written after what it is applied to. -/
def Accessor.text : Accessor → String
  | field name => "." ++ name
  | index i => "[" ++ i ++ "]"
  | length => ".length"

/-- The name an accessor carries: a field name, the text of an index, or
    `length`. -/
def Accessor.name : Accessor → String
  | field name => name
  | index i => i
  | length => "length"

/-- The word for a kind of accessor. -/
def Accessor.kindName : Accessor → String
  | field _ => "field"
  | index _ => "index"
  | length => "length"

/-- A root and the steps taken from it. An object that was allocated and not
    reached from anywhere has the empty root. -/
structure Origin where
  /-- The parameter or receiver the path starts at. -/
  root : String := ""
  /-- The steps from the root, outermost first. -/
  steps : List Accessor := []
  deriving Repr, DecidableEq, Inhabited

/-- What can be wrong with the text of an origin. -/
inductive OriginError where
  /-- There is no text. -/
  | empty
  /-- The text starts with a step. -/
  | noRoot (text : String)
  /-- A dot has no name after it. -/
  | emptyField (text : String)
  /-- A bracket is never closed. -/
  | unterminatedIndex (text : String)
  /-- Something other than a step follows an index. -/
  | unexpected (text : String) (found : Char)
  deriving Repr, DecidableEq

/-- The wording of an origin error. -/
def OriginError.message : OriginError → String
  | empty => "empty origin"
  | noRoot s => "origin " ++ Text.quoted s ++ " has no root"
  | emptyField s => "origin " ++ Text.quoted s ++ " has an empty field name"
  | unterminatedIndex s => "origin " ++ Text.quoted s ++ " has an unterminated index"
  | unexpected s c =>
    "origin " ++ Text.quoted s ++ ": unexpected " ++ Text.quotedChar (Text.leadingOctet c)

instance : Fault OriginError := ⟨fun _ => .error, OriginError.message⟩

namespace Origin

/-- The text in front of every complete origin. -/
def rootMark : String := "\x7bROOT\x7d:"

/-- The origin that consists of a root alone. -/
def ofRoot (root : String) : Origin := ⟨root, []⟩

/-- The origin with one more step. -/
def push (o : Origin) (a : Accessor) : Origin :=
  { o with steps := o.steps ++ [a] }

/-- The origin without its last step; a root is its own parent. -/
def parent (o : Origin) : Origin :=
  { o with steps := o.steps.dropLast }

/-- The last step, unless the origin is a root. -/
def last? (o : Origin) : Option Accessor :=
  o.steps.getLast?

/-- No step is taken from the root. -/
def isRoot (o : Origin) : Bool :=
  o.steps.isEmpty

/-- The origin leads nowhere: the object was not reached from a root. -/
def isEmpty (o : Origin) : Bool :=
  o.root == ""

/-- Some step goes through a field. -/
def hasField (o : Origin) : Bool :=
  o.steps.any fun | .field _ => true | _ => false

/-- Some step goes through an array element. -/
def hasIndex (o : Origin) : Bool :=
  o.steps.any fun | .index _ => true | _ => false

/-- The root followed by the steps. -/
def path (o : Origin) : String :=
  o.root ++ String.join (o.steps.map Accessor.text)

/-- The text that identifies the origin; an empty origin has none. -/
def text (o : Origin) : String :=
  if o.isEmpty then "" else rootMark ++ o.path

/-- Two origins are the same when they read the same. -/
def same (a b : Origin) : Bool :=
  a.text == b.text

/-- A character that starts a step, and so ends a name. -/
def startsStep (c : Char) : Bool :=
  c == '.' || c == '['

/-- Reads the steps of an origin. The whole text is passed along for the
    wording of errors. -/
def parseSteps (whole : String) (cs : List Char) : Except OriginError (List Accessor) :=
  match cs with
  | [] => .ok []
  | '.' :: rest =>
    let name := rest.takeWhile (!startsStep ·)
    if name.isEmpty then .error (.emptyField whole)
    else do
      let step := if name == "length".toList then .length else .field (String.ofList name)
      return step :: (← parseSteps whole (rest.drop name.length))
  | '[' :: rest =>
    let index := rest.takeWhile (· != ']')
    if index.length == rest.length then .error (.unterminatedIndex whole)
    else return .index (String.ofList index) :: (← parseSteps whole (rest.drop (index.length + 1)))
  | c :: _ => .error (.unexpected whole c)
termination_by cs.length
decreasing_by all_goals (simp only [List.length_drop, List.length_cons]; omega)

/-- Drops one leading root mark. -/
def stripRootMark (s : String) : String :=
  if rootMark.toList.isPrefixOf s.toList then
    String.ofList (s.toList.drop rootMark.toList.length)
  else s

/-- Reads an origin from its text, with or without the root mark. -/
def parse (s : String) : Except OriginError Origin :=
  let whole := stripRootMark s
  let root := whole.toList.takeWhile (!startsStep ·)
  if whole.toList.isEmpty then .error .empty
  else if root.isEmpty then .error (.noRoot whole)
  else return ⟨String.ofList root, ← parseSteps whole (whole.toList.drop root.length)⟩

end Origin

end PathWitness
