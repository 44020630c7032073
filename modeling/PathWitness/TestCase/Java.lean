import PathWitness.Const
import PathWitness.Descriptor

/-!
# Test Methods

The part of Java that generated tests are written in: declarations of locals,
stores into arrays and fields, one call, and at most one assertion on what it
returns. A test is built as a value of `TestMethod` and written out at the
end, so what a test does can be read off its statements.

Elements of arrays are reached by index. A chain with a field in it is walked
by reflection, with the two functions that every test class starts with.

## Main definitions

* `Source`: What a statement reads.
* `Statement`: A declaration or a store.
* `Invocation`: The call under test.
* `Assertion`: What is expected of the returned value.
* `TestMethod`: A test.
* `TestMethod.text`: A test in writing.
-/

namespace PathWitness

/-- A text with every character that cannot be part of an identifier
    replaced. -/
def identifierText (s : String) : String :=
  String.ofList (s.toList.map fun c =>
    if ('a' ≤ c && c ≤ 'z') || ('A' ≤ c && c ≤ 'Z') || ('0' ≤ c && c ≤ '9') || c == '_' then c
    else '_')

namespace TestCase

/-- One step of a chain that is walked by reflection. -/
inductive ChainStep where
  | field (name : String)
  | index (i : Int)
  deriving Repr, DecidableEq

/-- A step as the reflective functions take it. -/
def ChainStep.text : ChainStep → String
  | field name => Text.quoted name
  | index i => Text.quoted ("[" ++ toString i ++ "]")

/-- The steps of a chain as arguments. -/
def chainText (steps : List ChainStep) : String :=
  String.intercalate ", " (steps.map ChainStep.text)

/-- The indices of an array element. -/
def indexText (indices : List Int) : String :=
  String.join (indices.map fun i => "[" ++ toString i ++ "]")

/-- Splits a text before its first pair of brackets. There is no result
    without one. -/
def splitBrackets : List Char → Option (List Char × List Char)
  | '[' :: ']' :: rest => some ([], rest)
  | c :: rest => (splitBrackets rest).map fun (before, after) => (c :: before, after)
  | [] => none

/-- A new array: the length stands in the first pair of brackets. -/
def newArrayText (type length : String) : String :=
  let name := Descriptor.javaName type
  match splitBrackets name.toList with
  | some (before, after) =>
    "new " ++ String.ofList before ++ "[" ++ length ++ "]" ++ String.ofList after
  | none => "new " ++ name ++ "[" ++ length ++ "]"

/-- A constant in the type it is wanted in. -/
def literalText (type : Prim) (c : Const) : String :=
  if type = .boolean then (if c.toBool then "(1 != 0)" else "(0 != 0)")
  else "(" ++ type.keyword ++ ") " ++ c.literal

/-- The value that a variable has when nothing was stored in it. -/
def defaultText (type : String) : String :=
  match Prim.ofDescriptor? type with
  | some .boolean => "false"
  | some .byte => "(byte) 0"
  | some .char => "(char) 0"
  | some .short => "(short) 0"
  | some .int => "0"
  | some .long => "0L"
  | some .float => "0.0f"
  | some .double => "0.0d"
  | none => "null"

/-- What a statement reads. -/
inductive Source where
  /-- The null reference. -/
  | null
  /-- A constant of a type. -/
  | literal (type : Prim) (value : Const)
  /-- A local variable. -/
  | var (name : String)
  /-- A new object of a class. -/
  | newObject (className : String)
  /-- A new array whose length is in a local variable. -/
  | newArray (type length : String)
  /-- An element of an array in a local variable. -/
  | element (name : String) (indices : List Int)
  /-- The end of a chain from a local variable, as a value of a type. -/
  | chain (type name : String) (steps : List ChainStep)
  /-- Another source as a value of a type. -/
  | cast (type : String) (source : Source)
  deriving Repr, DecidableEq

/-- A source in writing. -/
def Source.text : Source → String
  | null => "null"
  | literal type c => literalText type c
  | var name => name
  | newObject c => "new " ++ Descriptor.javaName c ++ "()"
  | newArray type length => newArrayText type length
  | element name indices => name ++ indexText indices
  | chain type name steps =>
    "((" ++ Descriptor.javaName type ++ ") __get(" ++ name ++ ", " ++ chainText steps ++ "))"
  | cast type s => "((" ++ Descriptor.javaName type ++ ") " ++ s.text ++ ")"

/-- A statement that prepares the call. -/
inductive Statement where
  /-- Declares a local variable of a type. -/
  | declare (type name : String) (value : Source)
  /-- Stores into an element of an array in a local variable. -/
  | storeElement (name : String) (indices : List Int) (value : Source)
  /-- Stores at the end of a chain from a local variable. -/
  | storeChain (name : String) (steps : List ChainStep) (value : Source)
  deriving Repr, DecidableEq

/-- A statement in writing. -/
def Statement.text : Statement → String
  | declare type name v => Descriptor.javaName type ++ " " ++ name ++ " = " ++ v.text ++ ";"
  | storeElement name indices v => name ++ indexText indices ++ " = " ++ v.text ++ ";"
  | storeChain name steps v => "__set(" ++ name ++ ", " ++ v.text ++ ", " ++ chainText steps ++ ");"

/-- An argument of the call. -/
inductive Argument where
  /-- A local variable. -/
  | var (name : String)
  /-- The default value of a type. -/
  | default (type : String)
  deriving Repr, DecidableEq

/-- An argument in writing. -/
def Argument.text : Argument → String
  | var name => name
  | default type => defaultText type

/-- What a method is called on. -/
inductive Receiver where
  /-- The call is that of a constructor. -/
  | constructor
  /-- The method is static. -/
  | static
  /-- The receiver is in a local variable. -/
  | var (name : String)
  /-- The receiver is a new object that nothing was assumed about. -/
  | new
  deriving Repr, DecidableEq

/-- The call under test. -/
structure Invocation where
  /-- What the method is called on. -/
  receiver : Receiver
  /-- The class that declares the method. -/
  className : String
  /-- The name of the method. -/
  method : String
  /-- The arguments. -/
  arguments : List Argument
  deriving Repr, DecidableEq

/-- A call in writing. -/
def Invocation.text (c : Invocation) : String :=
  let arguments := "(" ++ String.intercalate ", " (c.arguments.map Argument.text) ++ ")"
  let type := Descriptor.javaName c.className
  match c.receiver with
  | .constructor => "new " ++ type ++ arguments
  | .static => type ++ "." ++ c.method ++ arguments
  | .var name => name ++ "." ++ c.method ++ arguments
  | .new => "new " ++ type ++ "()." ++ c.method ++ arguments

/-- What is expected of the returned value. -/
inductive Assertion where
  /-- It is this truth value. -/
  | truth (value : Bool)
  /-- It equals an expression over the locals. -/
  | expression (text : String)
  /-- It is this reference. -/
  | source (source : Source)
  /-- It is an object. -/
  | notNull
  deriving Repr, DecidableEq

/-- The local variable for the returned value. -/
def returnedName : String := "returnedValue"

/-- An assertion in writing. -/
def Assertion.text : Assertion → String
  | truth b => "assertTrue(" ++ returnedName ++ " == " ++ (if b then "true" else "false") ++ ");"
  | expression e => "assertTrue(" ++ returnedName ++ " == " ++ e ++ ");"
  | source s => "assertTrue(" ++ returnedName ++ " == " ++ s.text ++ ");"
  | notNull => "assertNotNull(" ++ returnedName ++ ");"

/-- A test. -/
structure TestMethod where
  /-- The number in the name of the test. -/
  number : Nat
  /-- The class of the exception that the call must end with. -/
  expected : Option String
  /-- The statements that prepare the call. -/
  setup : List Statement
  /-- The call under test. -/
  call : Invocation
  /-- The type of the returned value and what is expected of it. -/
  result : Option (String × Assertion)
  deriving Repr, DecidableEq

/-- One level of indentation. -/
def indentUnit : String := "    "

/-- A line at a level of indentation. -/
def line (level : Nat) (s : String) : String :=
  String.join (List.replicate level indentUnit) ++ s ++ "\n"

/-- A test in writing. -/
def TestMethod.text (t : TestMethod) : String :=
  let annotation :=
    match t.expected with
    | some type => "@Test(expected=" ++ Descriptor.javaName type ++ ".class)"
    | none => "@Test"
  let body :=
    match t.result with
    | none => line 2 (t.call.text ++ ";")
    | some (type, assertion) =>
      line 2 (Descriptor.javaName type ++ " " ++ returnedName ++ " = " ++ t.call.text ++ ";") ++
        line 2 assertion.text
  "\n" ++ line 1 annotation ++
    line 1 ("public void test" ++ toString t.number ++ "() throws Exception \x7b") ++
    String.join (t.setup.map fun s => line 2 s.text) ++ body ++ line 1 "\x7d"

end TestCase

end PathWitness
