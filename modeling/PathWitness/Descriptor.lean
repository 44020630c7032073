import PathWitness.Fault
import PathWitness.Primitive
import PathWitness.Text.Octet

/-!
# Type and Method Descriptors

Types are named by descriptors: a letter for a primitive type, `L`, a class
name and `;` for a class, and `[` before the descriptor of the members for an
array. A method descriptor lists the descriptors of the parameters between
parentheses and ends with that of the result.

Descriptors arrive as text and stay text, since a program may name types that
nothing declares; this module holds the questions that can be asked of them.

## Main definitions

* `Descriptor.isArray`, `Descriptor.isReference`: The kinds of reference types.
* `Descriptor.className`, `Descriptor.ofClass`: Class names and descriptors.
* `Descriptor.javaName`: A type as it is written in source text.
* `Parameter`: What stands for a parameter in a method descriptor.
* `Descriptor.parameters`, `Descriptor.result`: The parts of a method
  descriptor.
* `Signature`: A method of a class.

## Theorems

* `takeField_length`: Splitting off a field descriptor leaves a shorter text.
-/

namespace PathWitness

/-- What can be wrong with a descriptor. -/
inductive DescriptorError where
  /-- An array was expected. -/
  | notArray (descriptor : String)
  /-- The text is not a method descriptor. -/
  | malformedMethod (descriptor : String)
  deriving Repr, DecidableEq

/-- The wording of a descriptor error. -/
def DescriptorError.message : DescriptorError → String
  | notArray d => Text.quoted d ++ " is not an array type"
  | malformedMethod d => "malformed method descriptor " ++ Text.quoted d

instance : Fault DescriptorError := ⟨fun _ => .error, DescriptorError.message⟩

namespace Descriptor

/-- The descriptor of the class every other class extends. -/
def object : String := "Ljava/lang/Object;"

/-- The descriptor names a primitive type. -/
def isPrimitive (d : String) : Bool :=
  (Prim.ofDescriptor? d).isSome

/-- The descriptor (or class name) is that of an array. -/
def isArray (d : String) : Bool :=
  d.toList.head? == some '['

/-- The characters between the `L` and the `;` of a class descriptor. A class
    has a name of at least one character. -/
def classChars? (cs : List Char) : Option (List Char) :=
  match cs with
  | 'L' :: rest =>
    if rest.length ≥ 2 && rest.getLast? == some ';' then some rest.dropLast else none
  | _ => none

/-- The descriptor is that of a class. -/
def isReference (d : String) : Bool :=
  (classChars? d.toList).isSome

/-- Values of the type are references. -/
def isReferenceOrArray (d : String) : Bool :=
  isReference d || isArray d

/-- The type takes two local-variable slots. -/
def isWide (d : String) : Bool :=
  ((Prim.ofDescriptor? d).map Prim.isWide).getD false

/-- The descriptor of the members of an array type. -/
def member (d : String) : Except DescriptorError String :=
  match d.toList with
  | '[' :: rest => .ok (String.ofList rest)
  | _ => .error (.notArray d)

/-- The class named by a class descriptor. Any other text names itself. -/
def className (d : String) : String :=
  match classChars? d.toList with
  | some cs => String.ofList cs
  | none => d

/-- The descriptor of a class given by name. A text that is a descriptor
    already stays as it is. -/
def ofClass (name : String) : String :=
  if isArray name || isPrimitive name || isReference name then name else "L" ++ name ++ ";"

/-- A separator of package or nested class names, as source text has it. -/
def sourceSeparator (c : Char) : Char :=
  if c == '/' || c == '$' then '.' else c

/-- The type as it is written in source text: the members first, then one
    pair of brackets for every dimension. -/
def javaName (d : String) : String :=
  let dimensions := (d.toList.takeWhile (· == '[')).length
  let element := String.ofList (d.toList.drop dimensions)
  let base :=
    match Prim.ofDescriptor? element with
    | some p => p.keyword
    | none => String.ofList ((className element).toList.map sourceSeparator)
  base ++ String.join (List.replicate dimensions "[]")

/-- Takes one field descriptor off the front of a text: any number of `[`,
    then either a class up to its first `;` or one other character. -/
def takeField : List Char → Option (List Char × List Char)
  | [] => none
  | '[' :: rest => (takeField rest).map fun (field, tail) => ('[' :: field, tail)
  | 'L' :: rest =>
    match rest.dropWhile (· != ';') with
    | [] => none
    | mark :: tail => some ('L' :: rest.takeWhile (· != ';') ++ [mark], tail)
  | c :: rest => some ([c], rest)

theorem length_dropWhile_le (p : Char → Bool) (cs : List Char) :
    (cs.dropWhile p).length ≤ cs.length := by
  induction cs with
  | nil => simp
  | cons c rest ih =>
    rw [List.dropWhile_cons]
    split
    · exact Nat.le_succ_of_le ih
    · exact Nat.le_refl _

/-- A field descriptor is never empty, so what is left is shorter. -/
theorem takeField_length {cs field tail : List Char}
    (h : takeField cs = some (field, tail)) : tail.length < cs.length := by
  induction cs generalizing field with
  | nil => simp [takeField] at h
  | cons c rest ih =>
    unfold takeField at h
    split at h
    · simp at h
    · rename_i r heq
      obtain ⟨rfl, rfl⟩ := List.cons.inj heq
      obtain ⟨p, hp, hq⟩ := Option.map_eq_some_iff.1 h
      obtain ⟨f, t⟩ := p
      simp only [Prod.mk.injEq] at hq
      have := @ih f (by rw [hp, hq.2])
      exact Nat.lt_succ_of_lt this
    · rename_i r heq
      obtain ⟨rfl, rfl⟩ := List.cons.inj heq
      split at h
      · simp at h
      · rename_i mark t hdrop
        simp only [Option.some.injEq, Prod.mk.injEq] at h
        have hle := length_dropWhile_le (· != ';') rest
        rw [hdrop, List.length_cons] at hle
        rw [← h.2, List.length_cons]
        omega
    · rename_i heq
      obtain ⟨rfl, rfl⟩ := List.cons.inj heq
      simp only [Option.some.injEq, Prod.mk.injEq] at h
      rw [← h.2]
      simp

/-- Splits a text into field descriptors; there is no result when the text
    ends inside one. -/
def splitFields (cs : List Char) : Option (List (List Char)) :=
  match _taken : takeField cs with
  | some (field, tail) => (splitFields tail).map (field :: ·)
  | none => if cs.isEmpty then some [] else none
termination_by cs.length
decreasing_by exact takeField_length _taken

end Descriptor

/-- What stands for a parameter in a method descriptor. Unless a parameter is of
    a class, one octet says what it is; so each octet of a character beyond
    ASCII stands for a parameter of its own, which has no type. -/
inductive Parameter where
  /-- A parameter with a descriptor of its type. -/
  | typed (descriptor : String)
  /-- An octet after the brackets of some dimensions. -/
  | octet (dimensions value : Nat)
  deriving Repr, DecidableEq

namespace Parameter

/-- The parameters that a field descriptor stands for. -/
def ofField (field : List Char) : List Parameter :=
  let dimensions := (field.takeWhile (· == '[')).length
  match field.drop dimensions with
  | [c] =>
    match Text.octets c with
    | first :: second :: rest =>
      .octet dimensions first :: (second :: rest).map (.octet 0)
    | _ => [typed (String.ofList field)]
  | _ => [typed (String.ofList field)]

/-- The descriptor of the parameter's type, as far as it can be shown. -/
def text : Parameter → String
  | typed d => d
  | octet n v => Text.shown (List.replicate n (.char '[') ++ [.octet v])

end Parameter

namespace Descriptor

/-- The parameters of a method descriptor, in order. -/
def parameters (d : String) : Except DescriptorError (List Parameter) :=
  match d.toList with
  | '(' :: rest =>
    if rest.contains ')' then
      match splitFields (rest.takeWhile (· != ')')) with
      | some fields => .ok (fields.flatMap Parameter.ofField)
      | none => .error (.malformedMethod d)
    else .error (.malformedMethod d)
  | _ => .error (.malformedMethod d)

/-- The result descriptor of a method descriptor: what follows the first
    closing parenthesis, which must be something. -/
def result (d : String) : Except DescriptorError String :=
  match d.toList.dropWhile (· != ')') with
  | _ :: c :: rest => .ok (String.ofList (c :: rest))
  | _ => .error (.malformedMethod d)

end Descriptor

/-- A method of a class. -/
structure Signature where
  /-- The class that declares the method. -/
  className : String := ""
  /-- The descriptor of parameters and result. -/
  descriptor : String := ""
  /-- The name of the method. -/
  name : String := ""
  deriving Repr, DecidableEq, Inhabited

/-- A signature as it is named in messages. -/
def Signature.text (s : Signature) : String :=
  s.className ++ ":" ++ s.descriptor ++ ":" ++ s.name

end PathWitness
