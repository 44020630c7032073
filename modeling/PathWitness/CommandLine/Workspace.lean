import PathWitness.CommandLine
import PathWitness.FileName

/-!
# Files in Memory

A directory with its files as a value, for running the command without
touching any file. There is a directory wherever a file is below it.

A name leads to a file step by step, and each step but the last has to lead to
a directory that is there, even if a later step goes up again. Above the
directory there are only directories, and what is written there is not kept.

## Main definitions

* `Location`: A directory.
* `FileFault`: Why a file cannot be used.
* `Workspace`: A directory, with what was printed and logged.
* `Workspace.ofFiles`: A directory that holds just some files.
* `Workspace.read`, `Workspace.write`: Files by name.
* `Workspace.console`: The console that works on a workspace.
-/

namespace PathWitness

/-- A directory, by the way to it. -/
structure Location where
  /-- The way starts at the root of all directories. -/
  absolute : Bool := false
  /-- How far it goes up. -/
  up : Nat := 0
  /-- The names along the way down from there. -/
  down : List String := []
  deriving Repr, DecidableEq

namespace Location

/-- The directory above. The root is above itself. -/
def parent (l : Location) : Location :=
  if !l.down.isEmpty then { l with down := l.down.dropLast }
  else if l.absolute then l
  else { l with up := l.up + 1 }

/-- The place with a name in a directory. -/
def child (l : Location) (name : String) : Location :=
  { l with down := l.down ++ [name] }

/-- The clean name of a place. -/
def name (l : Location) : String :=
  FileName.clean ((if l.absolute then "/" else "") ++
    String.intercalate "/" (List.replicate l.up ".." ++ l.down))

end Location

/-- Why a file cannot be used. -/
inductive FileFault where
  | missing
  | notDirectory
  | isDirectory
  | nameTooLong
  deriving Repr, DecidableEq

/-- The wording of a file fault. -/
def FileFault.message : FileFault → String
  | missing => "no such file or directory"
  | notDirectory => "not a directory"
  | isDirectory => "is a directory"
  | nameTooLong => "file name too long"

/-- How many octets a name has at most. -/
def longestName : Nat := 4095

/-- How many octets an element of a name has at most. -/
def longestStep : Nat := 255

/-- What is at a place. -/
inductive Entry where
  /-- A file with its text. -/
  | file (text : String)
  /-- A directory. -/
  | directory (l : Location)
  /-- Nothing. -/
  | nothing

/-- A directory, with what was printed and logged. -/
structure Workspace where
  /-- Clean names and texts of files. -/
  files : List (String × String) := []
  /-- What was printed. -/
  printed : String := ""
  /-- The lines that were logged, the latest first. -/
  logged : List String := []

namespace Workspace

/-- A directory that holds just some files. -/
def ofFiles (files : List (String × String)) : Workspace :=
  { files := files.map fun (name, text) => (FileName.join "." name, text) }

/-- There is a directory at a place. -/
def hasDirectory (w : Workspace) (l : Location) : Bool :=
  l.down.isEmpty ||
    w.files.any fun (file, _) => (l.name ++ "/").toList.isPrefixOf file.toList

/-- What a step leads to from a directory. -/
def entry (w : Workspace) (l : Location) (step : String) : Except FileFault Entry :=
  if step == "." then .ok (.directory l)
  else if step == ".." then .ok (.directory l.parent)
  else if longestStep < step.utf8ByteSize then .error .nameTooLong
  else
    let place := l.child step
    match w.files.lookup place.name with
    | some text => .ok (.file text)
    | none => .ok (if w.hasDirectory place then .directory place else .nothing)

/-- The directory that some steps lead to. -/
def walk (w : Workspace) : Location → List String → Except FileFault Location
  | l, [] => .ok l
  | l, step :: rest => do
    match ← w.entry l step with
    | .directory l => walk w l rest
    | .file _ => throw .notDirectory
    | .nothing => throw .missing

/-- The directory of a file, and the last step that leads to the file. The name
    of a directory may have no step. -/
def locate (w : Workspace) (name : String) : Except FileFault (Location × String) :=
  let start : Location := { absolute := FileName.isAbsolute name }
  if name.isEmpty then .error .missing
  else if longestName < name.utf8ByteSize then .error .nameTooLong
  else
    match (FileName.steps name).reverse with
    | [] => .ok (start, ".")
    | last :: before => do return (← w.walk start before.reverse, last)

/-- The text of a file. A directory can be opened, but has no text. -/
def read (w : Workspace) (name : String) : Except String String :=
  let found : Except FileFault (Option String) := do
    let (l, last) ← w.locate name
    match ← w.entry l last with
    | .directory _ => return none
    | .file text => if FileName.endsWithSlash name then throw .notDirectory else return text
    | .nothing => throw .missing
  match found with
  | .ok (some text) => .ok text
  | .ok none => .error ("read " ++ name ++ ": " ++ FileFault.isDirectory.message)
  | .error e => .error ("open " ++ name ++ ": " ++ e.message)

/-- The workspace with a text in a file. -/
def written (w : Workspace) (name text : String) : Except FileFault Workspace := do
  let (l, last) ← w.locate name
  if FileName.endsWithSlash name then throw .isDirectory
  else
    match ← w.entry l last with
    | .directory _ => throw .isDirectory
    | _ =>
      if l.absolute || 0 < l.up then return w
      else
        let key := (l.child last).name
        return { w with files := w.files.filter (·.1 != key) ++ [(key, text)] }

/-- Writes a text to a file. -/
def write (w : Workspace) (name text : String) : Except String Workspace :=
  (w.written name text).mapError fun e => "open " ++ name ++ ": " ++ e.message

/-- The console that works on a workspace. -/
def console : Console (StateM Workspace) where
  read name := do return (← get).read name
  write name text := do
    match (← get).write name text with
    | .ok w =>
      set w
      return .ok ()
    | .error e => return .error e
  print text := modify fun w => { w with printed := w.printed ++ text }
  log line := modify fun w => { w with logged := line :: w.logged }

/-- Runs the command on a workspace. -/
def runCommand (w : Workspace) (args : List String) : UInt32 × Workspace :=
  (Command.run console args).run w

end Workspace

end PathWitness
