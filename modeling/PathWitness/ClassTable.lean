import PathWitness.Descriptor
import PathWitness.Fault

/-!
# Class Tables

The classes a path may expand references to: superclass, whether the class can
be instantiated, and the fields it declares. A class that is not declared has
no superclass and no fields, and counts as instantiable.

Every declared class but the root extends the root class when it names no
superclass. A table is accepted only if no chain of superclasses returns to
where it started, so a chain is never longer than the table and one more.

## Main definitions

* `ClassDecl`: A class with its fields.
* `ClassTable`: Declared classes.
* `ClassTable.ofList`: Accepts or refuses declarations.
* `ClassTable.fields`: The fields of a class, inherited ones first.
* `ClassTable.isSubclass`: Whether one type can be used as another.
* `ClassTable.instantiable`: The classes a reference can be expanded to.
-/

namespace PathWitness

/-- A field of a class. -/
structure FieldDecl where
  /-- The name of the field. -/
  name : String := ""
  /-- The descriptor of the field's type. -/
  type : String := ""
  deriving Repr, DecidableEq, Inhabited

/-- A class with the fields it declares. -/
structure ClassDecl where
  /-- The name of the class. -/
  name : String := ""
  /-- The name of the superclass; empty if none is named. -/
  super : String := ""
  /-- The class has no instances of its own. -/
  isAbstract : Bool := false
  /-- The instance fields the class declares itself. -/
  fields : List FieldDecl := []
  deriving Repr, DecidableEq, Inhabited

/-- The class every other class extends. -/
def rootClass : String := "java/lang/Object"

namespace ClassDecl

/-- The declaration with the root class as superclass if none is named. -/
def withSuper (c : ClassDecl) : ClassDecl :=
  if c.super = "" && c.name != rootClass then { c with super := rootClass } else c

end ClassDecl

/-- A field has a name and a type that values can have. -/
def FieldDecl.isValid (f : FieldDecl) : Bool :=
  f.name != "" && (Descriptor.isPrimitive f.type || Descriptor.isReferenceOrArray f.type)

/-- Declared classes, in the order of their declaration. -/
structure ClassTable where
  /-- The declarations. -/
  classes : List ClassDecl := []
  deriving Repr, DecidableEq, Inhabited

/-- Why declarations are refused. -/
inductive ClassError where
  /-- The declaration with an index has no name. -/
  | unnamed (index : Nat)
  /-- A name is declared twice. -/
  | duplicate (name : String)
  /-- A field has no name or no type. -/
  | badField (name : String) (field : FieldDecl)
  /-- A class extends itself through others. -/
  | cyclic (name : String)
  deriving Repr, DecidableEq

/-- The wording of a class error. -/
def ClassError.message : ClassError → String
  | unnamed i => "class " ++ toString i ++ " has no name"
  | duplicate n => "class " ++ n ++ " declared twice"
  | badField n f =>
    "class " ++ n ++ ": bad field " ++ Text.quoted f.name ++ " of type " ++ Text.quoted f.type
  | cyclic n => "class " ++ n ++ ": cyclic inheritance"

instance : Fault ClassError := ⟨fun _ => .error, ClassError.message⟩

namespace ClassTable

/-- The declaration of a class. -/
def find? (t : ClassTable) (name : String) : Option ClassDecl :=
  t.classes.find? (·.name == name)

/-- The superclass of a class; empty if there is none. -/
def super (t : ClassTable) (name : String) : String :=
  match t.find? name with
  | some c => c.super
  | none => ""

/-- A class and its superclasses, nearest first. There is no answer when the
    chain is longer than allowed. -/
def chainWithin (t : ClassTable) : Nat → String → Option (List String)
  | 0, name => if name = "" then some [] else none
  | n + 1, name =>
    if name = "" then some [] else (t.chainWithin n (t.super name)).map (name :: ·)

/-- A class and its superclasses, nearest first. A chain without repetition
    passes through every declared class at most once and may end in one that
    is not declared. -/
def chain? (t : ClassTable) (name : String) : Option (List String) :=
  t.chainWithin (t.classes.length + 1) name

/-- A class and its superclasses, nearest first. In an accepted table every
    chain ends. -/
def chain (t : ClassTable) (name : String) : List String :=
  (t.chain? name).getD []

/-- Adds a declaration after checking its name and its fields. -/
def declare (t : ClassTable) (c : ClassDecl) : Except ClassError ClassTable :=
  if c.name = "" then .error (.unnamed t.classes.length)
  else if (t.find? c.name).isSome then .error (.duplicate c.name)
  else
    match c.fields.find? (!·.isValid) with
    | some f => .error (.badField c.name f)
    | none => .ok ⟨t.classes ++ [c.withSuper]⟩

/-- Accepts declarations with distinct names, valid fields and no cycle. -/
def ofList (classes : List ClassDecl) : Except ClassError ClassTable := do
  let t ← classes.foldlM declare {}
  match t.classes.find? fun c => (t.chain? c.name).isNone with
  | some c => .error (.cyclic c.name)
  | none => return t

/-- The instance fields of a class, those of superclasses first. -/
def fields (t : ClassTable) (name : String) : List FieldDecl :=
  (t.chain name).reverse.flatMap fun n =>
    match t.find? n with
    | some c => c.fields
    | none => []

/-- A class or array can be used as another. Arrays can be used as themselves
    and as the root class only. -/
def isSubclass (t : ClassTable) (sub super : String) : Bool :=
  if sub = super || super = rootClass then true
  else if Descriptor.isArray sub || Descriptor.isArray super then false
  else (t.chain (t.super sub)).contains super

/-- The class is declared and has no instances of its own. -/
def isAbstract (t : ClassTable) (name : String) : Bool :=
  ((t.find? name).map ClassDecl.isAbstract).getD false

/-- The classes that a reference of a static class can be expanded to, in the
    order of their declaration. A class that is not declared stands for
    itself, and the root class for itself and all others. -/
def instantiable (t : ClassTable) (name : String) : List String :=
  if Descriptor.isArray name then [name]
  else
    let declared := (t.find? name).isSome
    if !declared && name != rootClass then [name]
    else
      let own := if declared then [] else [rootClass]
      own ++ (t.classes.filter fun c => !c.isAbstract && t.isSubclass c.name name).map (·.name)

end ClassTable

end PathWitness
