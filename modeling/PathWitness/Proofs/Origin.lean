import Mathlib.Data.List.TakeWhile
import PathWitness.Proofs.Computation

/-!
# The Text of an Origin

Reading an origin scans its text from the left and decides at every dot and every
bracket where the step ends. Seen from outside, the text is a root and a sequence of
steps, each of which is spelled in one way: a dot and a name, or an index in brackets.
`Spells` says so without a scanner, and texts that are put together are spelled by
putting steps together. So a symbol behind a reference is read from the text of the
reference and the text of one more step.

There are two exceptions to reading what was written. A dot and the word `length` are
read as the length of an array, also where they were written for a field. An index ends at
the first closing bracket, also where that is part of the index. Apart from that the text
is a faithful key, because steps are written as they are spelled.

## Main definitions

* `Accessor.ofName`: The step that a name after a dot is read as.
* `Origin.isPlain`: A text without the start of a step.
* `Origin.Spells`: A text spells steps.
* `Origin.isFaithful`: The root and the steps follow the rules of reading.

## Theorems

* `text_push`: The text of an origin with one more step.
* `parseSteps_eq_ok_iff`: The steps that are read are those that are spelled.
* `parse_eq_ok_iff`: What an origin is read from.
* `parse_append_name`: An origin with one more name.
* `root_of_text`: The root can be read off the text.
* `text_of_parse`: An origin is written as it was read.
* `parse_text_iff`: The origins that are read back from their texts.
* `text_faithful`: The text of an origin is a faithful key.
-/

namespace PathWitness

/-- The step that a name after a dot is read as. -/
def Accessor.ofName (name : String) : Accessor :=
  if name = "length" then .length else .field name

namespace Origin

variable {cs ds name : List Char} {steps steps' : List Accessor} {w : String}

/-- No step starts in the text. -/
def isPlain (s : String) : Bool :=
  s.toList.all (!startsStep ·)

theorem isPlain_iff {s : String} : isPlain s = true ↔ ∀ c ∈ s.toList, startsStep c = false := by
  simp [isPlain]

/-- A text spells steps. -/
inductive Spells : List Char → List Accessor → Prop where
  | done : Spells [] []
  | name {name rest : List Char} {steps : List Accessor} (hname : name ≠ [])
    (hplain : ∀ c ∈ name, startsStep c = false) (h : Spells rest steps) :
    Spells ('.' :: (name ++ rest)) (.ofName (String.ofList name) :: steps)
  | index {index rest : List Char} {steps : List Accessor} (hindex : ']' ∉ index)
    (h : Spells rest steps) :
    Spells ('[' :: (index ++ ']' :: rest)) (.index (String.ofList index) :: steps)

theorem Spells.append (h : Spells cs steps) (h' : Spells ds steps') :
    Spells (cs ++ ds) (steps ++ steps') := by
  induction h with
  | done => exact h'
  | name hname hplain _ ih =>
      rw [List.cons_append, List.append_assoc]
      exact .name hname hplain ih
  | index hindex _ ih =>
      rw [List.cons_append, List.append_assoc, List.cons_append]
      exact .index hindex ih

theorem Spells.head {c : Char} (h : Spells (c :: cs) steps) : startsStep c = true := by
  cases h <;> rfl

/-- A name ends where steps start. -/
theorem Spells.takeWhile_append (h : Spells cs steps)
    (hplain : ∀ c ∈ name, startsStep c = false) :
    (name ++ cs).takeWhile (!startsStep ·) = name := by
  have hstop : cs.takeWhile (!startsStep ·) = [] := by
    cases cs with
    | nil => rfl
    | cons c cs => simp [h.head]
  rw [List.takeWhile_append_of_pos (fun c hc => by simp [hplain c hc]), hstop, List.append_nil]

/-- The step that is read after a dot, said without a scanner for the word `length`. -/
theorem ofName_ofList (name : List Char) :
    (if name == "length".toList then .length else .field (String.ofList name))
      = Accessor.ofName (String.ofList name) := by
  unfold Accessor.ofName
  by_cases hlength : name = "length".toList
  · rw [hlength]
    rfl
  · have hother : String.ofList name ≠ "length" := fun heq => hlength (by rw [← heq]; simp)
    rw [if_neg hother, if_neg (by simpa using hlength)]

theorem parseSteps_of_spells (h : Spells cs steps) : parseSteps w cs = .ok steps := by
  induction h with
  | done => rw [parseSteps]
  | @name name rest steps hname hplain h ih =>
      have htake := h.takeWhile_append hplain
      rw [parseSteps]
      simp only [htake, List.isEmpty_eq_false_iff.2 hname, Bool.false_eq_true, if_false,
        List.drop_left, ih, ofName_ofList]
      rfl
  | @index index rest steps hindex h ih =>
      have hinside : ∀ c ∈ index, (c != ']') = true := by
        intro c hc
        exact bne_iff_ne.2 fun heq => hindex (heq ▸ hc)
      have htake : (index ++ ']' :: rest).takeWhile (· != ']') = index := by
        rw [List.takeWhile_append_of_pos hinside]
        simp
      have hdrop : (index ++ ']' :: rest).drop (index.length + 1) = rest := by
        simp [List.drop_append]
      have hclosed : (index.length == (index ++ ']' :: rest).length) = false := by
        simp
      rw [parseSteps]
      simp only [htake, hclosed, hdrop, ih, Bool.false_eq_true, if_false]
      rfl

theorem spells_of_parseSteps (h : parseSteps w cs = .ok steps) : Spells cs steps := by
  fun_induction parseSteps w cs generalizing steps with
  | case1 =>
      rw [← Except.ok.inj h]
      exact .done
  | case2 rest _ => cases h
  | case3 rest name hname step =>
      rename_i ih
      obtain ⟨more, hmore, hsteps⟩ := bind_eq_ok h
      have hrest : name ++ rest.drop name.length = rest :=
        List.prefix_iff_eq_append.1 (List.takeWhile_prefix _)
      have hstep : step = .ofName (String.ofList name) := ofName_ofList name
      rw [← Except.ok.inj hsteps, hstep, ← hrest]
      exact .name (by simpa using hname) (fun c hc => by simpa using List.mem_takeWhile_imp hc)
        (ih hmore)
  | case4 rest _ => cases h
  | case5 rest index hindex =>
      rename_i ih
      obtain ⟨more, hmore, hsteps⟩ := bind_eq_ok h
      have hrest : index ++ rest.dropWhile (· != ']') = rest := List.takeWhile_append_dropWhile
      -- The scan has stopped before the end, so it has stopped at a bracket.
      cases hdrop : rest.dropWhile (· != ']') with
      | nil =>
          rw [hdrop, List.append_nil] at hrest
          exact absurd (congrArg List.length hrest) (by simpa using hindex)
      | cons c tail =>
          have hstop := List.head_dropWhile_not (· != ']') (l := rest) (by rw [hdrop]; simp)
          simp only [hdrop, List.head_cons] at hstop
          have hc : c = ']' := by simpa using hstop
          subst hc
          rw [hdrop] at hrest
          have htail : rest.drop (index.length + 1) = tail := by
            rw [← hrest]
            simp [List.drop_append]
          rw [← Except.ok.inj hsteps, ← hrest]
          rw [htail] at ih hmore
          exact .index (fun hc => by simpa using List.mem_takeWhile_imp hc) (ih hmore)
  | case6 => cases h

/-- The steps that are read are those that are spelled. -/
theorem parseSteps_eq_ok_iff : parseSteps w cs = .ok steps ↔ Spells cs steps :=
  ⟨spells_of_parseSteps, parseSteps_of_spells⟩

/-- A root in front of steps, of which a root mark says nothing. -/
theorem parse_eq_ok_iff {s : String} {o : Origin} : parse s = .ok o ↔
    o.root ≠ "" ∧ isPlain o.root = true ∧
      ∃ cs, (stripRootMark s).toList = o.root.toList ++ cs ∧ Spells cs o.steps := by
  unfold parse
  generalize stripRootMark s = whole
  constructor
  · intro h
    by_cases hempty : whole.toList.isEmpty = true
    · simp [hempty] at h
    · by_cases hroot : (whole.toList.takeWhile (!startsStep ·)).isEmpty = true
      · simp [hempty, hroot] at h
      · simp only [hempty, hroot, Bool.false_eq_true, if_false] at h
        obtain ⟨steps, hsteps, ho⟩ := bind_eq_ok h
        rw [← Except.ok.inj ho]
        refine ⟨by simpa using hroot, isPlain_iff.2 fun c hc => ?_, _, ?_,
          parseSteps_eq_ok_iff.1 hsteps⟩
        · rw [String.toList_ofList] at hc
          simpa using List.mem_takeWhile_imp hc
        · rw [String.toList_ofList]
          exact (List.prefix_iff_eq_append.1 (List.takeWhile_prefix _)).symm
  · rintro ⟨hroot, hplain, cs, hwhole, hspells⟩
    have htake := hspells.takeWhile_append (isPlain_iff.1 hplain)
    have hne : o.root.toList.isEmpty = false := by simpa using hroot
    have hwhole' : (o.root.toList ++ cs).isEmpty = false := by simp [hroot]
    simp only [hwhole, htake, hwhole', hne, Bool.false_eq_true, if_false, List.drop_left,
      parseSteps_eq_ok_iff.2 hspells, String.ofList_toList]
    rfl

/-- The root mark is not completed by a step. -/
theorem stripRootMark_append {s e : String} (h : Spells e.toList steps) :
    stripRootMark (s ++ e) = stripRootMark s ++ e := by
  unfold stripRootMark
  by_cases hmark : rootMark.toList <+: s.toList
  · have hlonger : rootMark.toList <+: (s ++ e).toList := by
      rw [String.toList_append]
      exact hmark.trans (List.prefix_append _ _)
    rw [if_pos (List.isPrefixOf_iff_prefix.2 hmark), if_pos (List.isPrefixOf_iff_prefix.2 hlonger),
      String.toList_append, List.drop_append_of_le_length hmark.length_le, String.ofList_append,
      String.ofList_toList]
  · have hlonger : ¬rootMark.toList <+: (s ++ e).toList := by
      rintro ⟨more, hmore⟩
      rw [String.toList_append] at hmore
      rcases List.append_eq_append_iff.1 hmore with ⟨rest, hs, -⟩ | ⟨rest, hs, he⟩
      · exact hmark ⟨rest, hs.symm⟩
      · -- The rest of the mark would start with the character of a step.
        cases rest with
        | nil => exact hmark ⟨[], by simp [hs]⟩
        | cons c rest =>
            have hplain : isPlain rootMark = true := by decide
            have hc := isPlain_iff.1 hplain c (by rw [hs]; simp)
            rw [he, List.cons_append] at h
            rw [h.head] at hc
            cases hc
    rw [if_neg fun hp => hmark (List.isPrefixOf_iff_prefix.1 hp),
      if_neg fun hp => hlonger (List.isPrefixOf_iff_prefix.1 hp)]

/-- Steps behind an origin are read after the steps of the origin. -/
theorem parse_append {s e : String} {o : Origin} (h : parse s = .ok o)
    (he : Spells e.toList steps) : parse (s ++ e) = .ok ⟨o.root, o.steps ++ steps⟩ := by
  obtain ⟨hroot, hplain, cs, hcs, hspells⟩ := parse_eq_ok_iff.1 h
  refine parse_eq_ok_iff.2 ⟨hroot, hplain, cs ++ e.toList, ?_, hspells.append he⟩
  rw [stripRootMark_append he, String.toList_append, hcs, List.append_assoc]

/-- A dot and a name behind an origin are read as one more step. -/
theorem parse_append_name {s name : String} {o : Origin} (h : parse s = .ok o)
    (hname : name ≠ "") (hplain : isPlain name = true) :
    parse (s ++ "." ++ name) = .ok (o.push (.ofName name)) := by
  have hspells : Spells ("." ++ name).toList [.ofName name] := by
    have hone := @Spells.name name.toList [] [] (by simpa using hname) (isPlain_iff.1 hplain) .done
    rw [List.append_nil, String.ofList_toList] at hone
    rw [String.toList_append]
    exact hone
  rw [String.append_assoc, parse_append h hspells]
  rfl

theorem text_push {o : Origin} (hnamed : o.isEmpty = false) (a : Accessor) :
    (o.push a).text = o.text ++ a.text := by
  have hnamed' : (o.push a).isEmpty = false := hnamed
  rw [text, text, hnamed, hnamed']
  simp [path, push, String.join_append, String.append_assoc]

theorem push_inj {o o' : Origin} {a a' : Accessor} (h : o.push a = o'.push a') :
    o = o' ∧ a = a' := by
  obtain ⟨hroot, hsteps⟩ := mk.inj h
  obtain ⟨hinit, hlast⟩ := List.append_inj' hsteps rfl
  exact ⟨by rw [mk.injEq]; exact ⟨hroot, hinit⟩, List.singleton_inj.1 hlast⟩

theorem push_ne_root (o : Origin) (a : Accessor) : (o.push a).steps ≠ [] :=
  List.append_ne_nil_of_right_ne_nil _ (List.cons_ne_nil _ _)

theorem last?_push (o : Origin) (a : Accessor) : (o.push a).last? = some a :=
  List.getLast?_concat

/-- The root of an origin ends where the steps start. -/
theorem takeWhile_path {o : Origin} (hplain : isPlain o.root = true) :
    o.path.toList.takeWhile (!startsStep ·) = o.root.toList := by
  have hroot : ∀ c ∈ o.root.toList, (!startsStep c) = true := by
    intro c hc
    rw [isPlain_iff.1 hplain c hc]
    rfl
  rw [path, String.toList_append, List.takeWhile_append_of_pos hroot]
  cases hsteps : o.steps with
  | nil => simp
  | cons a rest =>
      -- Every step starts with a dot or a bracket.
      cases a with
      | field name => simp [String.join_cons, Accessor.text, startsStep]
      | index i => simp [String.join_cons, Accessor.text, startsStep]
      | length => simp [String.join_cons, Accessor.text, startsStep]

/-- The root can be read off the text of an origin. -/
theorem root_of_text {o o' : Origin} (hnamed : o.isEmpty = false) (hnamed' : o'.isEmpty = false)
    (hplain : isPlain o.root = true) (hplain' : isPlain o'.root = true) (h : o.text = o'.text) :
    o.root = o'.root := by
  rw [text, text, hnamed, hnamed'] at h
  have hpath : o.path = o'.path := by simpa using h
  rw [← String.toList_inj, ← takeWhile_path hplain, ← takeWhile_path hplain', hpath]

end Origin

/-- The step follows the rules by which texts are read: a name is not empty, no step
    starts in it, and it is not the word for the length of an array; an index has no
    bracket in it that would end it early. -/
def Accessor.isFaithful : Accessor → Bool
  | field name => name != "" && Origin.isPlain name && name != "length"
  | index i => !i.toList.contains ']'
  | length => true

namespace Origin

variable {cs : List Char} {steps : List Accessor} {s : String} {o o' : Origin}

/-- The root and the steps follow the rules by which texts are read. -/
def isFaithful (o : Origin) : Bool :=
  o.root != "" && isPlain o.root && o.steps.all Accessor.isFaithful

theorem text_ofName (name : String) : (Accessor.ofName name).text = "." ++ name := by
  unfold Accessor.ofName
  by_cases hlength : name = "length"
  · rw [if_pos hlength, hlength]
    rfl
  · rw [if_neg hlength]
    rfl

/-- Steps are written as they were spelled. -/
theorem Spells.join_text (h : Spells cs steps) :
    (String.join (steps.map Accessor.text)).toList = cs := by
  induction h with
  | done => rfl
  | name hname hplain _ ih =>
      rw [List.map_cons, String.join_cons, String.toList_append, text_ofName, ih]
      simp
  | index hindex _ ih =>
      rw [List.map_cons, String.join_cons, String.toList_append, ih]
      simp [Accessor.text]

/-- Steps that are read follow the rules. -/
theorem Spells.isFaithful (h : Spells cs steps) : steps.all Accessor.isFaithful = true := by
  induction h with
  | done => rfl
  | @name name rest steps hname hplain _ ih =>
      rw [List.all_cons, ih, Bool.and_true]
      unfold Accessor.ofName
      by_cases hlength : String.ofList name = "length"
      · rw [if_pos hlength]
        rfl
      · have hnamed : String.ofList name ≠ "" := by simpa using hname
        have hplain' : isPlain (String.ofList name) = true :=
          isPlain_iff.2 (by simpa using hplain)
        simp [Accessor.isFaithful, hnamed, hplain', hlength]
  | index hindex _ ih =>
      rw [List.all_cons, ih, Bool.and_true]
      simpa [Accessor.isFaithful] using hindex

/-- Steps that follow the rules are spelled by their texts. -/
theorem spells_of_isFaithful (h : steps.all Accessor.isFaithful = true) :
    Spells (String.join (steps.map Accessor.text)).toList steps := by
  induction steps with
  | nil => exact .done
  | cons a steps ih =>
      rw [List.all_cons, Bool.and_eq_true] at h
      have hrest := ih h.2
      rw [List.map_cons, String.join_cons, String.toList_append]
      cases a with
      | field name =>
          simp only [Accessor.isFaithful, Bool.and_eq_true, bne_iff_ne] at h
          obtain ⟨⟨⟨hname, hplain⟩, hlength⟩, -⟩ := h
          have hspells := Spells.name (by simpa using hname) (isPlain_iff.1 hplain) hrest
          rw [String.ofList_toList, Accessor.ofName, if_neg hlength] at hspells
          simpa [Accessor.text] using hspells
      | index i =>
          simp only [Accessor.isFaithful, Bool.not_eq_true', List.contains_eq_mem,
            decide_eq_false_iff_not] at h
          have hspells := Spells.index h.1 hrest
          rw [String.ofList_toList] at hspells
          simpa [Accessor.text] using hspells
      | length =>
          have hplain : isPlain "length" = true := by decide
          have hspells := Spells.name (by decide) (isPlain_iff.1 hplain) hrest
          rw [String.ofList_toList, Accessor.ofName, if_pos rfl] at hspells
          simpa [Accessor.text] using hspells

theorem stripRootMark_rootMark (s : String) : stripRootMark (rootMark ++ s) = s := by
  have hmark : rootMark.toList <+: (rootMark ++ s).toList := by
    rw [String.toList_append]
    exact List.prefix_append _ _
  rw [stripRootMark, if_pos (List.isPrefixOf_iff_prefix.2 hmark), String.toList_append,
    List.drop_left, String.ofList_toList]

/-- An origin is written as it was read, with the root mark in front. -/
theorem text_of_parse (h : parse s = .ok o) : o.text = rootMark ++ stripRootMark s := by
  obtain ⟨hroot, -, cs, hwhole, hspells⟩ := parse_eq_ok_iff.1 h
  have hpath : o.path = stripRootMark s := by
    rw [← String.toList_inj, path, String.toList_append, hspells.join_text, hwhole]
  rw [text, if_neg (by simpa [isEmpty] using hroot), hpath]

/-- The origins that follow the rules are those that are read back from their texts. -/
theorem parse_text_iff : parse o.text = .ok o ↔ o.isFaithful = true := by
  rw [parse_eq_ok_iff]
  simp only [isFaithful, Bool.and_eq_true, bne_iff_ne, and_assoc]
  constructor
  · rintro ⟨hroot, hplain, cs, -, hspells⟩
    exact ⟨hroot, hplain, hspells.isFaithful⟩
  · rintro ⟨hroot, hplain, hsteps⟩
    refine ⟨hroot, hplain, _, ?_, spells_of_isFaithful hsteps⟩
    rw [text, if_neg (by simpa [isEmpty] using hroot), stripRootMark_rootMark, path,
      String.toList_append]

/-- The text of an origin is a faithful key. A text is accepted exactly if, without one
    root mark in front, it is a root and spelled steps; what is read from it is written
    with the same text and read from that again; and the origins that are read back from
    their texts are those that follow the rules, so no two of them have the same text. -/
theorem text_faithful (s : String) (o o' : Origin) :
    ((∃ o, parse s = .ok o) ↔ ∃ root cs steps, root ≠ "" ∧ isPlain root = true ∧
      (stripRootMark s).toList = root.toList ++ cs ∧ Spells cs steps) ∧
    (parse s = .ok o → o.text = rootMark ++ stripRootMark s ∧ parse o.text = .ok o) ∧
    (parse o.text = .ok o ↔ o.isFaithful = true) ∧
    (o.isFaithful = true → o'.isFaithful = true → o.text = o'.text → o = o') := by
  refine ⟨⟨?_, ?_⟩, fun h => ⟨text_of_parse h, ?_⟩, parse_text_iff, fun ho ho' htext => ?_⟩
  · rintro ⟨o, ho⟩
    obtain ⟨hroot, hplain, cs, hwhole, hspells⟩ := parse_eq_ok_iff.1 ho
    exact ⟨o.root, cs, o.steps, hroot, hplain, hwhole, hspells⟩
  · rintro ⟨root, cs, steps, hroot, hplain, hwhole, hspells⟩
    exact ⟨⟨root, steps⟩, parse_eq_ok_iff.2 ⟨hroot, hplain, cs, hwhole, hspells⟩⟩
  · obtain ⟨hroot, hplain, cs, hwhole, hspells⟩ := parse_eq_ok_iff.1 h
    refine parse_eq_ok_iff.2 ⟨hroot, hplain, cs, ?_, hspells⟩
    rw [text_of_parse h, stripRootMark_rootMark, hwhole]
  · have hread := parse_text_iff.2 ho
    rw [htext, parse_text_iff.2 ho'] at hread
    exact (Except.ok.inj hread).symm

/-- An origin with each kind of step; with a field `length` for its last step it would have
    the same text. -/
theorem text_faithful_cells :
    isFaithful ⟨"grid", [.index "0", .field "cells", .length]⟩ = true ∧
    isFaithful ⟨"grid", [.index "0", .field "cells", .field "length"]⟩ = false ∧
    text ⟨"grid", [.index "0", .field "cells", .length]⟩ = "\x7bROOT\x7d:grid[0].cells.length" ∧
    text ⟨"grid", [.index "0", .field "cells", .field "length"]⟩
      = "\x7bROOT\x7d:grid[0].cells.length" ∧
    parse (text ⟨"grid", [.index "0", .field "cells", .length]⟩) =
      .ok ⟨"grid", [.index "0", .field "cells", .length]⟩ :=
  ⟨by decide, by decide, by decide, by decide,
    (text_faithful "" ⟨"grid", [.index "0", .field "cells", .length]⟩ ⟨"", []⟩).2.2.1.2 (by decide)⟩

/-- An origin without fields whose index has a bracket in it has the text of another, which is
    read in its place. -/
theorem bracket_in_index_misread :
    let o : Origin := ⟨"x", [.index "0][1"]⟩
    let o' : Origin := ⟨"x", [.index "0", .index "1"]⟩
    o.root ≠ "" ∧ isPlain o.root = true ∧ o.hasField = false ∧ o ≠ o' ∧ o.text = o'.text ∧
      parse o.text = .ok o' := by
  have hread : parse (text ⟨"x", [.index "0", .index "1"]⟩) = .ok ⟨"x", [.index "0", .index "1"]⟩ :=
    parse_text_iff.2 (by decide)
  exact ⟨by decide, by decide, by decide, by decide, by decide, hread⟩

end Origin

end PathWitness
