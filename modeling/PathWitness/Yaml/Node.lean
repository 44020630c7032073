import PathWitness.Yaml.Event

/-!
# Documents

A document is a tree of scalars, sequences and mappings. A node that has a name
may be referred to further on, and even inside of itself; so the nodes with
names are kept beside the tree, by numbers, and a reference holds a number.

## Main definitions

* `Node`: A tree.
* `Document`: A tree with the nodes that are referred to.
* `Document.ofEvents?`: The document that events tell.
* `Document.parse?`: Reads the first document of a text.
-/

namespace PathWitness

namespace Yaml

/-- A tree. -/
inductive Node where
  /-- A text. -/
  | scalar (s : Scalar)
  /-- A list of nodes. -/
  | sequence (items : List Node)
  /-- Pairs of keys and values, in the order in which they are written. -/
  | mapping (entries : List (Node × Node))
  /-- Another node, by its number. A reference has a number of its own. -/
  | reference (self target : Nat)
  deriving Repr, Inhabited

/-- A tree with the nodes that are referred to. -/
structure Document where
  /-- The tree. -/
  root : Node
  /-- The nodes with names, by their numbers. -/
  named : List (Nat × Node) := []
  /-- The number of events that tell the document. -/
  size : Nat := 0

/-- What has been told of a collection whose end is to come: its kind, its
    number if it has a name, and its nodes, the latest first. -/
structure OpenNode where
  /-- The collection is a mapping. -/
  isMapping : Bool
  /-- The number of the collection. -/
  number : Option Nat
  /-- The nodes in it. -/
  nodes : List Node := []

/-- A document that is being told. -/
structure Telling where
  /-- The collections whose ends are to come, the innermost first. -/
  opened : List OpenNode := []
  /-- The numbers of names. A name that is given again means the later node. -/
  names : List (String × Nat) := []
  /-- The nodes with names that are complete. -/
  named : List (Nat × Node) := []
  /-- The number of the next node or reference. -/
  next : Nat := 0
  /-- The tree, once it is complete. -/
  root : Option Node := none

/-- The keys and values of a mapping. -/
def pairUp : List Node → List (Node × Node)
  | key :: value :: rest => (key, value) :: pairUp rest
  | _ => []

namespace Telling

/-- A node may be referred to from now on. -/
def nameNode (t : Telling) : Option String → Telling × Option Nat
  | none => (t, none)
  | some name => ({ t with names := (name, t.next) :: t.names, next := t.next + 1 }, some t.next)

/-- A node is complete. -/
def complete (t : Telling) (number : Option Nat) (n : Node) : Telling :=
  let t := match number with
    | some number => { t with named := (number, n) :: t.named }
    | none => t
  match t.opened with
  | [] => { t with root := some n }
  | c :: outer => { t with opened := { c with nodes := n :: c.nodes } :: outer }

/-- A collection starts. -/
def openNode (t : Telling) (isMapping : Bool) (name : Option String) : Telling :=
  let (t, number) := t.nameNode name
  { t with opened := { isMapping, number } :: t.opened }

/-- The innermost collection ends. -/
def closeNode (t : Telling) : Telling :=
  match t.opened with
  | [] => t
  | c :: outer =>
    let nodes := c.nodes.reverse
    { t with opened := outer }.complete c.number
      (if c.isMapping then .mapping (pairUp nodes) else .sequence nodes)

/-- The document after one more event. A reference to a name that has not been
    given is refused. -/
def step (t : Telling) : Event → Option Telling
  | .scalar name s =>
    let (t, number) := t.nameNode name
    some (t.complete number (.scalar s))
  | .reference name =>
    match t.names.lookup name with
    | some target => some ({ t with next := t.next + 1 }.complete none (.reference t.next target))
    | none => none
  | .sequenceStart name => some (t.openNode false name)
  | .mappingStart name => some (t.openNode true name)
  | .sequenceEnd | .mappingEnd => some t.closeNode

end Telling

namespace Document

/-- The document that events tell. -/
def ofEvents? (events : List Event) : Option Document := do
  let t ← events.foldlM Telling.step {}
  return { root := ← t.root, named := t.named, size := events.length }

/-- The document of an empty text. -/
def empty : Document := { root := .scalar {} }

/-- Reads the first document of a text. -/
def parse? (text : String) : Option Document := do
  match ← Event.ofText? text with
  | some events => ofEvents? events
  | none => return empty

end Document

end Yaml

end PathWitness
