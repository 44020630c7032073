/-!
# File Names

Names of files are worked with as texts, without looking at any file. A name
is a list of elements between slashes; a leading slash makes it absolute.

## Main definitions

* `FileName.steps`: The elements of a name, in order.
* `FileName.extension`: The last part of a name, from its last dot.
* `FileName.clean`: The shortest name of the same place.
* `FileName.directory`: The place a file is in.
* `FileName.join`: A name relative to a place.
-/

namespace PathWitness

namespace FileName

/-- The elements of a name, those between two slashes included. -/
def elements : List Char → List (List Char)
  | [] => [[]]
  | c :: rest =>
    match c, elements rest with
    | '/', parts => [] :: parts
    | c, part :: parts => (c :: part) :: parts
    | c, [] => [[c]]

/-- The elements of a name that are not empty. -/
def steps (name : String) : List String :=
  ((elements name.toList).filter (!·.isEmpty)).map String.ofList

/-- A slash ends the name. -/
def endsWithSlash (name : String) : Bool :=
  name.toList.getLast? == some '/'

/-- The name is absolute. -/
def isAbsolute (name : String) : Bool :=
  name.toList.head? == some '/'

/-- The part of a name's last element from its last dot on; empty if it has
    none. -/
def extension (name : String) : String :=
  let last := name.toList.reverse.takeWhile (· != '/')
  if last.contains '.' then String.ofList ('.' :: (last.takeWhile (· != '.')).reverse) else ""

/-- One element more, after the elements of a cleaned name in reverse order.
    Going up takes an element away, and going up from an absolute name stays
    where it is. -/
def step (absolute : Bool) (done : List (List Char)) (element : List Char) : List (List Char) :=
  if element == [] || element == ['.'] then done
  else if element == ['.', '.'] then
    match done with
    | [] => if absolute then [] else [element]
    | last :: rest => if last == ['.', '.'] then element :: done else rest
  else element :: done

/-- The shortest name of the same place. -/
def clean (name : String) : String :=
  let absolute := isAbsolute name
  let parts := ((elements name.toList).foldl (step absolute) []).reverse
  let body := String.intercalate "/" (parts.map String.ofList)
  if absolute then "/" ++ body else if parts.isEmpty then "." else body

/-- The place a file is in. -/
def directory (name : String) : String :=
  clean (String.ofList (name.toList.reverse.dropWhile (· != '/')).reverse)

/-- A name relative to a place. -/
def join (place name : String) : String :=
  clean (place ++ "/" ++ name)

end FileName

end PathWitness
