import PathWitness.Fault
import PathWitness.Term.Eval

/-!
# Models

A model gives constants to primitive symbols. Symbols are identified by their
number, and the entries are kept in ascending order of it, so two models that
agree on every symbol are equal.

## Main definitions

* `Model`: A finite assignment of constants to symbol numbers.
* `Model.get?`, `Model.insert`, `Model.erase`: Reading and changing a model.
* `Model.set`: Gives a symbol a value, converted to the symbol's type.
* `Model.eval`: The value of a term under a model.
* `Model.text`: A model as it is shown.
-/

namespace PathWitness

/-- A finite assignment of constants to symbol numbers. -/
structure Model where
  /-- The assigned numbers with their constants. -/
  entries : List (Nat × Const)
  /-- The numbers ascend, so each occurs once. -/
  ascending : entries.Pairwise (·.1 < ·.1)
  deriving DecidableEq

namespace Model

/-- The model without entries. -/
def empty : Model := ⟨[], .nil⟩

instance : Inhabited Model := ⟨empty⟩

/-- Puts an entry into an ascending list, in place of one with its number. -/
def insertEntry (n : Nat) (c : Const) : List (Nat × Const) → List (Nat × Const)
  | [] => [(n, c)]
  | e :: rest =>
    if n < e.1 then (n, c) :: e :: rest
    else if n = e.1 then (n, c) :: rest
    else e :: insertEntry n c rest

theorem mem_insertEntry {n : Nat} {c : Const} {l : List (Nat × Const)} {e : Nat × Const}
    (h : e ∈ insertEntry n c l) : e = (n, c) ∨ e ∈ l := by
  induction l with
  | nil => simpa [insertEntry] using h
  | cons a rest ih =>
    unfold insertEntry at h
    split at h
    · simpa using h
    · split at h
      · rcases List.mem_cons.1 h with h | h
        · exact .inl h
        · exact .inr (List.mem_cons_of_mem _ h)
      · rcases List.mem_cons.1 h with h | h
        · exact .inr (h ▸ List.mem_cons_self)
        · exact (ih h).imp id (List.mem_cons_of_mem _)

theorem pairwise_insertEntry (n : Nat) (c : Const) {l : List (Nat × Const)}
    (h : l.Pairwise (·.1 < ·.1)) : (insertEntry n c l).Pairwise (·.1 < ·.1) := by
  induction l with
  | nil => simp [insertEntry]
  | cons a rest ih =>
    obtain ⟨ha, hrest⟩ := List.pairwise_cons.1 h
    unfold insertEntry
    split
    · rename_i hlt
      refine List.pairwise_cons.2 ⟨?_, h⟩
      intro e he
      rcases List.mem_cons.1 he with rfl | he
      · exact hlt
      · exact Nat.lt_trans hlt (ha e he)
    · split
      · rename_i heq
        exact List.pairwise_cons.2 ⟨fun e he => heq ▸ ha e he, hrest⟩
      · refine List.pairwise_cons.2 ⟨?_, ih hrest⟩
        intro e he
        rcases mem_insertEntry he with rfl | he
        · show a.1 < n
          omega
        · exact ha e he

/-- The constant of a symbol number. -/
def get? (m : Model) (n : Nat) : Option Const :=
  m.entries.lookup n

/-- The model with a constant at a symbol number. -/
def insert (m : Model) (n : Nat) (c : Const) : Model :=
  ⟨insertEntry n c m.entries, pairwise_insertEntry n c m.ascending⟩

/-- The model without a symbol number. -/
def erase (m : Model) (n : Nat) : Model :=
  ⟨m.entries.filter (·.1 != n), m.ascending.filter _⟩

/-- Gives a symbol a value, converted to the symbol's type. -/
def set (m : Model) (s : PrimSymbol) (c : Const) : Model :=
  m.insert s.number (c.convert s.type)

end Model

/-- A symbol has no value in a model. -/
structure MissingValue where
  /-- The symbol without a value. -/
  symbol : PrimSymbol
  deriving Repr, DecidableEq

/-- The wording of a missing value. -/
def MissingValue.message (e : MissingValue) : String :=
  "no value in model: " ++ e.symbol.id ++ " (" ++ e.symbol.origin.text ++ ")"

instance : Fault MissingValue := ⟨fun _ => .missingValue, MissingValue.message⟩

namespace Model

/-- The value of a symbol. -/
def lookup (m : Model) (s : PrimSymbol) : Except MissingValue Const :=
  match m.get? s.number with
  | some c => .ok c
  | none => .error ⟨s⟩

/-- The value of a term under a model. -/
def eval (m : Model) (t : Term) : Except (EvalError MissingValue) Const :=
  t.eval m.lookup

/-- A model as it is shown: its entries in the order of their identifiers. -/
def text (m : Model) : String :=
  let shown := m.entries.map fun e => (PrimSymbol.idOf e.1, e.2)
  let sorted := shown.mergeSort fun a b => a.1 ≤ b.1
  "\x7b" ++ String.intercalate ", " (sorted.map fun e => e.1 ++ "=" ++ e.2.text) ++ "\x7d"

end Model

end PathWitness
