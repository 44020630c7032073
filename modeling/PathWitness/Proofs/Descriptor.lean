import PathWitness.Descriptor

/-!
# Descriptors That Are Written

A method descriptor is a text without separators: the types of the parameters stand one
behind the other. They can be told apart because each type says itself where it ends. A
primitive type is one letter, a class ends with the first semicolon, and an array is a
bracket before the type of its members. So the types that a descriptor was written from are
read off it again, whatever they are and however many.

## Main definitions

* `ClassName`: A name that can stand in a descriptor.
* `FieldType`: The types that fields and parameters can have.
* `FieldType.width`, `FieldType.widths`: The number of slots that values take.
* `Descriptor.ofMethod`: The descriptor of a method.

## Theorems

* `takeField_chars`: One type is read off the front of a text.
* `splitFields_chars`: A sequence of types is read off a text.
* `parameters_eq_ok_iff`: Where the parameters of a method descriptor are.
* `parameters_ofMethod`: The parameters of a method are read off its descriptor.
* `isWide_text`, `isWide_of_reference`: Wide types take two slots.
-/

namespace PathWitness

/-- A name of a class that can stand in a descriptor. It has no character in it that ends
    the class or the parameters. -/
structure ClassName where
  /-- The name. -/
  text : String
  /-- Neither character is in it. -/
  plain : ∀ c ∈ text.toList, c ≠ ';' ∧ c ≠ ')'

/-- The types that fields and parameters can have. -/
inductive FieldType where
  | primitive (p : Prim)
  | object (name : ClassName)
  | array (members : FieldType)

namespace FieldType

/-- The characters of the descriptor of a type. -/
def chars : FieldType → List Char
  | primitive p => [p.letter]
  | object name => 'L' :: (name.text.toList ++ [';'])
  | array members => '[' :: members.chars

/-- The descriptor of a type. -/
def text (t : FieldType) : String :=
  String.ofList t.chars

/-- The number of slots that a value of the type takes. -/
def width : FieldType → Nat
  | primitive .long | primitive .double => 2
  | _ => 1

/-- The number of slots that values of some types take together. -/
def widths : List FieldType → Nat
  | [] => 0
  | t :: rest => t.width + widths rest

end FieldType

/-- The descriptor of a method with some parameters and a result. -/
def Descriptor.ofMethod (fields : List FieldType) (result : String) : String :=
  "(" ++ String.ofList (fields.flatMap FieldType.chars) ++ ")" ++ result

namespace Descriptor

/-- A text ends at the first mark behind it, if the mark is not in it. -/
theorem span_mark {α : Type} [BEq α] [LawfulBEq α] {cs : List α} {mark : α}
    (h : ∀ c ∈ cs, c ≠ mark) (rest : List α) :
    (cs ++ mark :: rest).takeWhile (· != mark) = cs ∧
      (cs ++ mark :: rest).dropWhile (· != mark) = mark :: rest := by
  have hcs : ∀ c ∈ cs, (c != mark) = true := fun c hc => bne_iff_ne.2 (h c hc)
  rw [List.takeWhile_append_of_pos hcs, List.dropWhile_append_of_pos hcs]
  simp

/-- A letter of a primitive type starts neither an array nor a class. -/
theorem takeField_letter (p : Prim) (rest : List Char) :
    takeField (p.letter :: rest) = some ([p.letter], rest) := by
  cases p <;> rfl

/-- One type is read off the front of a text, whatever comes behind it. -/
theorem takeField_chars (t : FieldType) (rest : List Char) :
    takeField (t.chars ++ rest) = some (t.chars, rest) := by
  induction t with
  | primitive p => exact takeField_letter p rest
  | object name =>
      obtain ⟨htake, hdrop⟩ := span_mark (fun c hc => (name.plain c hc).1) rest
      have hchars : (FieldType.object name).chars ++ rest
          = 'L' :: (name.text.toList ++ ';' :: rest) := by
        simp [FieldType.chars]
      rw [hchars, takeField, hdrop]
      dsimp only
      rw [htake]
      rfl
  | array members ih =>
      change (takeField (members.chars ++ rest)).map _ = _
      rw [ih]
      rfl

/-- A sequence of types is read off a text. -/
theorem splitFields_chars (fields : List FieldType) :
    splitFields (fields.flatMap FieldType.chars) = some (fields.map FieldType.chars) := by
  induction fields with
  | nil => rw [splitFields]; rfl
  | cons t rest ih =>
      rw [splitFields]
      split
      · rename_i field tail htaken
        rw [List.flatMap_cons, takeField_chars] at htaken
        obtain ⟨rfl, rfl⟩ := Prod.mk.inj (Option.some.inj htaken)
        rw [ih]
        rfl
      · rename_i hnone
        rw [List.flatMap_cons, takeField_chars] at hnone
        cases hnone

/-- No type has the character in it that ends the parameters. -/
theorem paren_not_mem_chars (t : FieldType) : ∀ c ∈ t.chars, c ≠ ')' := by
  induction t with
  | primitive p => cases p <;> simp [FieldType.chars, Prim.letter]
  | object name =>
      intro c hc
      simp only [FieldType.chars, List.mem_cons, List.mem_append, List.not_mem_nil,
        or_false] at hc
      rcases hc with rfl | hc | rfl
      · decide
      · exact (name.plain c hc).2
      · decide
  | array members ih =>
      intro c hc
      rcases List.mem_cons.1 hc with rfl | hc
      · decide
      · exact ih c hc

/-- Behind the brackets of its dimensions a type has one letter, or it is a class. -/
theorem chars_dimensions (t : FieldType) : ∃ n base,
    t.chars = List.replicate n '[' ++ base ∧
      ((∃ p : Prim, base = [p.letter]) ∨ ∃ c cs, base = 'L' :: c :: cs) := by
  induction t with
  | primitive p => exact ⟨0, [p.letter], rfl, .inl ⟨p, rfl⟩⟩
  | object name =>
      obtain ⟨c, cs, hcs⟩ := List.exists_cons_of_ne_nil
        (List.append_ne_nil_of_right_ne_nil name.text.toList (List.cons_ne_nil ';' []))
      exact ⟨0, _, rfl, .inr ⟨c, cs, by rw [hcs]⟩⟩
  | array members ih =>
      obtain ⟨n, base, hchars, hbase⟩ := ih
      exact ⟨n + 1, base, by rw [FieldType.chars, hchars, List.replicate_succ]; rfl, hbase⟩

/-- The brackets in front of a field are counted, and what is behind them is left. -/
theorem split_brackets (n : Nat) (base : List Char) (hstop : base.takeWhile (· == '[') = []) :
    ((List.replicate n '[' ++ base).takeWhile (· == '[')).length = n ∧
      (List.replicate n '[' ++ base).drop n = base := by
  have hbrackets : ∀ c ∈ List.replicate n '[', (c == '[') = true :=
    fun c hc => beq_iff_eq.2 (List.eq_of_mem_replicate hc)
  rw [List.takeWhile_append_of_pos hbrackets, hstop, List.append_nil, List.length_replicate,
    List.drop_left' List.length_replicate]
  exact ⟨rfl, rfl⟩

/-- A type stands for one parameter. -/
theorem ofField_chars (t : FieldType) : Parameter.ofField t.chars = [.typed t.text] := by
  obtain ⟨n, base, hchars, hbase⟩ := chars_dimensions t
  have hstop : base.takeWhile (· == '[') = [] := by
    rcases hbase with ⟨p, rfl⟩ | ⟨c, cs, rfl⟩
    · cases p <;> rfl
    · rfl
  obtain ⟨hdimensions, hdrop⟩ := split_brackets n base hstop
  rw [← hchars] at hdimensions hdrop
  simp only [Parameter.ofField, hdimensions, hdrop]
  rcases hbase with ⟨p, rfl⟩ | ⟨c, cs, rfl⟩
  · cases p <;> rfl
  · rfl

/-- The parameters are what is between the first parenthesis and the next closing one. -/
theorem parameters_eq_ok_iff {d : String} {ps : List Parameter} :
    parameters d = .ok ps ↔ ∃ inner rest fields, d.toList = '(' :: (inner ++ ')' :: rest) ∧
      ')' ∉ inner ∧ splitFields inner = some fields ∧ ps = fields.flatMap Parameter.ofField := by
  constructor
  · intro h
    unfold parameters at h
    split at h
    · rename_i text hd
      split at h
      · rename_i hcontains
        split at h
        · rename_i fields hfields
          -- What was split ends where the first parenthesis is.
          obtain ⟨inner, rest, rfl, hparen⟩ :=
            List.eq_append_cons_of_mem (List.contains_iff_mem.1 hcontains)
          rw [(span_mark (fun c hc (heq : c = ')') => hparen (heq ▸ hc)) rest).1] at hfields
          exact ⟨inner, rest, fields, hd, hparen, hfields, (Except.ok.inj h).symm⟩
        · cases h
      · cases h
    · cases h
  · rintro ⟨inner, rest, fields, hd, hparen, hfields, rfl⟩
    have hends : (inner ++ ')' :: rest).contains ')' = true := by simp
    have htake := (span_mark (fun c hc (heq : c = ')') => hparen (heq ▸ hc)) rest).1
    simp only [parameters, hd, hends, if_true, htake, hfields]

/-- The parameters of a method are read off its descriptor. -/
theorem parameters_ofMethod (fields : List FieldType) (result : String) :
    parameters (ofMethod fields result) = .ok (fields.map fun t => .typed t.text) := by
  have hlist : (ofMethod fields result).toList
      = '(' :: (fields.flatMap FieldType.chars ++ ')' :: result.toList) := by
    simp [ofMethod]
  have hplain : ')' ∉ fields.flatMap FieldType.chars := by
    intro hmem
    obtain ⟨t, -, ht⟩ := List.mem_flatMap.1 hmem
    exact paren_not_mem_chars t _ ht rfl
  refine parameters_eq_ok_iff.2 ⟨_, _, _, hlist, hplain, splitFields_chars fields, ?_⟩
  simp only [List.flatMap_map, ofField_chars, ← List.map_eq_flatMap]

/-- A text of several characters names no primitive type. -/
theorem ofDescriptor?_of_several (c d : Char) (cs : List Char) :
    Prim.ofDescriptor? (String.ofList (c :: d :: cs)) = none := by
  rw [Prim.ofDescriptor?, String.toList_ofList]

/-- Wide types take two slots. -/
theorem isWide_text (t : FieldType) : (if isWide t.text then 2 else 1) = t.width := by
  have hseveral : ∀ c cs, cs ≠ [] → isWide (String.ofList (c :: cs)) = false := by
    intro c cs hcs
    obtain ⟨d, ds, rfl⟩ := List.exists_cons_of_ne_nil hcs
    rw [isWide, ofDescriptor?_of_several]
    rfl
  cases t with
  | primitive p => cases p <;> rfl
  | object name =>
      rw [FieldType.text, FieldType.chars, hseveral _ _ (by simp)]
      rfl
  | array members =>
      have hmembers : members.chars ≠ [] := by cases members <;> simp [FieldType.chars]
      rw [FieldType.text, FieldType.chars, hseveral _ _ hmembers]
      rfl

/-- References are not wide. -/
theorem isWide_of_reference {d : String} (h : isReferenceOrArray d = true) : isWide d = false := by
  unfold isWide Prim.ofDescriptor?
  split
  · rename_i c hd
    simp only [isReferenceOrArray, isReference, isArray, hd, Bool.or_eq_true] at h
    rcases h with hclass | harray
    · -- A class has a name between its first and its last character.
      unfold classChars? at hclass
      split at hclass
      · rename_i heq
        obtain ⟨-, rfl⟩ := List.cons.inj heq
        cases hclass
      · cases hclass
    · obtain rfl : c = '[' := by simpa using harray
      rfl
  · rfl

end Descriptor

end PathWitness
