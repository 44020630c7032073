import PathWitness.Proofs.Computation

/-!
# Path Conditions stay Consistent

The clauses of a path condition and its two indexes are written by different
calls, and readers trust that they agree: that the index of references leads to
the clause that resolves the reference, and the index of positions to the
clause that created the object. This module shows that they do after any calls,
whether these succeed or fail.

A call either fails and changes nothing, or it grows the path condition in one
of four ways. `Grown` lists the four ways with what was checked before, and
`make_cases` says that there are no others. Everything else is derived from
that, so a change to one of the calls concerns its case there.

Both indexes obey one law, `Indexed`, for different keys of clauses.

## Main definitions

* `Indexed`: A map leads exactly to the clauses that have a key.
* `PathCondition.Consistent`: Clauses and indexes agree.
* `Assumption`: A call that makes an assumption.
* `PathCondition.Grown`: What a call that succeeds does.
* `PoolStep`: A call on one of several path conditions, or a copy of one.

## Theorems

* `Indexed.snoc_other`, `Indexed.snoc_new`: One more clause.
* `make_cases`: A call fails and changes nothing, or grows the path condition.
* `Consistent.grown`: Growing keeps a path condition consistent.
* `Consistent.resolution?_eq`, `Consistent.resolvingClause?_none`: What readers
  find.
* `pool_consistent`: All that holds after any calls and copies.
-/

namespace PathWitness

/-- The number of the reference a clause resolves. -/
def Clause.resolvedNumber? : Clause → Option Nat
  | resolve ref _ => some ref.number
  | _ => none

/-- The position at which a clause created an object. -/
def Clause.expandedPosition? : Clause → Option Int
  | resolve _ (.fresh p _) => some p
  | _ => none

/-- Only the resolution of a reference has its number as key. -/
theorem eq_resolve_of_resolvedNumber {c : Clause} {n : Nat} (h : c.resolvedNumber? = some n) :
    ∃ ref how, c = .resolve ref how ∧ ref.number = n := by
  cases c with
  | resolve ref how => exact ⟨ref, how, rfl, Option.some.inj h⟩
  | assume t => exact absurd h (by simp only [Clause.resolvedNumber?, reduceCtorEq,
      not_false_eq_true])
  | initialized type => exact absurd h (by simp only [Clause.resolvedNumber?, reduceCtorEq,
      not_false_eq_true])

/-- Only the creation of an object at a position has that position as key. -/
theorem eq_fresh_of_expandedPosition {c : Clause} {p : Int} (h : c.expandedPosition? = some p) :
    ∃ ref type, c = .resolve ref (.fresh p type) := by
  unfold Clause.expandedPosition? at h
  split at h
  · exact ⟨_, _, by rw [Option.some.inj h]⟩
  · exact absurd h (by simp only [reduceCtorEq, not_false_eq_true])

section Indexed

variable {κ : Type} [BEq κ]

/-- A map from keys to places leads exactly to the clauses that have a key. -/
def Indexed (key : Clause → Option κ) (map : List (κ × Nat)) (clauses : List Clause) : Prop :=
  ∀ k i, map.lookup k = some i ↔ ∃ c, clauses[i]? = some c ∧ key c = some k

variable {key : Clause → Option κ} {map : List (κ × Nat)} {clauses : List Clause} {c : Clause}

theorem Indexed.unique (h : Indexed key map clauses) {i j : Nat} {d : Clause} {k : κ}
    (hi : clauses[i]? = some c) (hj : clauses[j]? = some d) (hc : key c = some k)
    (hd : key d = some k) : i = j := by
  have hlookup := (h k i).2 ⟨c, hi, hc⟩
  rw [(h k j).2 ⟨d, hj, hd⟩] at hlookup
  exact (Option.some.inj hlookup).symm

/-- An entry leads to a clause, so a reader that finds none has found no
    entry. -/
theorem Indexed.lookup_none (h : Indexed key map clauses) {k : κ}
    (hk : (map.lookup k).bind (clauses[·]?) = none) : map.lookup k = none := by
  cases hlookup : map.lookup k with
  | none => rfl
  | some i =>
      rcases (h k i).1 hlookup with ⟨c, hc, _⟩
      rw [hlookup, Option.bind_some, hc] at hk
      exact absurd hk (by simp only [reduceCtorEq, not_false_eq_true])

/-- A clause without a key leaves the map as it is. -/
theorem Indexed.snoc_other (h : Indexed key map clauses) (hc : key c = none) :
    Indexed key map (clauses ++ [c]) := by
  intro k i
  rw [h k i]
  refine ⟨fun ⟨d, hd, hk⟩ => ⟨d, getElem?_snoc.2 (.inl hd), hk⟩, fun ⟨d, hd, hk⟩ => ?_⟩
  rcases getElem?_snoc.1 hd with hold | ⟨_, rfl⟩
  · exact ⟨d, hold, hk⟩
  · exact absurd (hc.symm.trans hk) (by simp only [reduceCtorEq, not_false_eq_true])

/-- A clause with a key that no other has gets an entry of its own. -/
theorem Indexed.snoc_new [LawfulBEq κ] (h : Indexed key map clauses) {k : κ}
    (hc : key c = some k) (hnew : map.lookup k = none) :
    Indexed key ((k, clauses.length) :: map) (clauses ++ [c]) := by
  intro k' i
  -- The new entry stands in front, so it answers for its own key alone.
  by_cases hk : k' = k
  · rw [hk, List.lookup_cons, beq_self_eq_true]
    refine ⟨fun hi => ⟨c, getElem?_snoc.2 (.inr ⟨(Option.some.inj hi).symm, rfl⟩), hc⟩, ?_⟩
    rintro ⟨d, hd, hdk⟩
    rcases getElem?_snoc.1 hd with hold | ⟨hi, _⟩
    · -- An older clause with the key would have an entry already.
      rw [(h k i).2 ⟨d, hold, hdk⟩] at hnew
      exact absurd hnew (by simp only [reduceCtorEq, not_false_eq_true])
    · rw [hi]
  · rw [List.lookup_cons, beq_eq_false_iff_ne.2 hk, h k' i]
    refine ⟨fun ⟨d, hd, hdk⟩ => ⟨d, getElem?_snoc.2 (.inl hd), hdk⟩, fun ⟨d, hd, hdk⟩ => ?_⟩
    rcases getElem?_snoc.1 hd with hold | ⟨_, rfl⟩
    · exact ⟨d, hold, hdk⟩
    · exact absurd (Option.some.inj (hdk.symm.trans hc)) hk

end Indexed

/-- Every alias stands after the clause that created its object. -/
def AliasesFollow (clauses : List Clause) : Prop :=
  ∀ (i : Nat) ref p, clauses[i]? = some (Clause.resolve ref (.aliasOf p)) →
    ∃ j < i, ∃ ref' type, clauses[j]? = some (Clause.resolve ref' (.fresh p type))

/-- Every new array stands right before a condition with one symbol. -/
def LengthsFollow (clauses : List Clause) : Prop :=
  ∀ (i : Nat) ref p type, clauses[i]? = some (Clause.resolve ref (.fresh p type)) →
    Descriptor.isArray type = true →
    ∃ c, clauses[i + 1]? = some (Clause.assume c) ∧ c.symbols.length = 1

theorem AliasesFollow.snoc {clauses : List Clause} (h : AliasesFollow clauses) {c : Clause}
    (hc : ∀ ref p, c = .resolve ref (.aliasOf p) →
      ∃ j : Nat, ∃ ref' type, clauses[j]? = some (Clause.resolve ref' (.fresh p type))) :
    AliasesFollow (clauses ++ [c]) := by
  intro i ref p hi
  rcases getElem?_snoc.1 hi with hold | ⟨rfl, hnew⟩
  · rcases h i ref p hold with ⟨j, hj, ref', type, hfresh⟩
    exact ⟨j, hj, ref', type, getElem?_snoc.2 (.inl hfresh)⟩
  · rcases hc ref p hnew with ⟨j, ref', type, hfresh⟩
    exact ⟨j, (List.getElem?_eq_some_iff.1 hfresh).1, ref', type, getElem?_snoc.2 (.inl hfresh)⟩

theorem LengthsFollow.snoc {clauses : List Clause} (h : LengthsFollow clauses) {c : Clause}
    (hc : ∀ ref p type, c = .resolve ref (.fresh p type) → Descriptor.isArray type = false) :
    LengthsFollow (clauses ++ [c]) := by
  intro i ref p type hi htype
  rcases getElem?_snoc.1 hi with hold | ⟨_, hnew⟩
  · rcases h i ref p type hold htype with ⟨d, hd, hone⟩
    exact ⟨d, getElem?_snoc.2 (.inl hd), hone⟩
  · exact absurd (htype.symm.trans (hc ref p type hnew)) Bool.noConfusion

/-- An array and the condition on its length are added together. -/
theorem LengthsFollow.snoc_array {clauses : List Clause} (h : LengthsFollow clauses)
    {ref : RefSymbol} {how : Resolution} {c : Term} (hone : c.symbols.length = 1) :
    LengthsFollow (clauses ++ [.resolve ref how, .assume c]) := by
  rw [show [Clause.resolve ref how, .assume c] = [.resolve ref how] ++ [.assume c] from rfl,
    ← List.append_assoc]
  intro i ref' p type hi htype
  rcases getElem?_snoc.1 hi with hi | ⟨_, hassume⟩
  · rcases getElem?_snoc.1 hi with hold | ⟨rfl, _⟩
    · rcases h i ref' p type hold htype with ⟨d, hd, hd'⟩
      exact ⟨d, getElem?_snoc.2 (.inl (getElem?_snoc.2 (.inl hd))), hd'⟩
    · -- The array itself: the condition is the clause behind it.
      refine ⟨c, getElem?_snoc.2 (.inr ⟨?_, rfl⟩), hone⟩
      rw [List.length_append, List.length_singleton]
  · exact absurd hassume (by simp only [reduceCtorEq, not_false_eq_true])

namespace PathCondition

/-- Clauses and indexes agree. -/
structure Consistent (pc : PathCondition) : Prop where
  /-- The index of references leads exactly to the clauses that resolve them. -/
  resolved : Indexed Clause.resolvedNumber? pc.resolved pc.clauses
  /-- The index of positions leads exactly to the clauses that created objects. -/
  expanded : Indexed Clause.expandedPosition? pc.expanded pc.clauses
  /-- An alias stands after the clause that created its object. -/
  aliases : AliasesFollow pc.clauses
  /-- A new array stands right before a condition with one symbol. -/
  lengths : LengthsFollow pc.clauses

/-- What a call that succeeds does: it adds these clauses, and entries for those
    of them that have a key. Each way comes with what was checked before. -/
inductive Grown (pc : PathCondition) : List Clause → PathCondition → Prop where
  /-- A clause that resolves nothing. -/
  | plain {c : Clause} (hc : c.resolution? = none) :
    Grown pc [c] { pc with clauses := pc.clauses ++ [c] }
  /-- A resolution that creates no object. -/
  | settled {ref : RefSymbol} {how : Resolution} (hnew : pc.resolvingClause? ref.number = none)
    (hhow : how = .null ∨ ∃ p earlier, how = .aliasOf p ∧ pc.expandingClause? p = some earlier) :
    Grown pc [.resolve ref how]
      { pc with
        clauses := pc.clauses ++ [.resolve ref how]
        resolved := (ref.number, pc.size) :: pc.resolved }
  /-- A resolution that creates an object. -/
  | object {ref : RefSymbol} {p : Int} {type : String}
    (hnew : pc.resolvingClause? ref.number = none) (hfree : pc.expandingClause? p = none)
    (htype : Descriptor.isArray type = false) :
    Grown pc [.resolve ref (.fresh p type)]
      { clauses := pc.clauses ++ [.resolve ref (.fresh p type)]
        resolved := (ref.number, pc.size) :: pc.resolved
        expanded := (p, pc.size) :: pc.expanded }
  /-- A resolution that creates an array, with the condition on its length. -/
  | array {ref : RefSymbol} {p : Int} {type : String} {c : Term}
    (hnew : pc.resolvingClause? ref.number = none) (hfree : pc.expandingClause? p = none)
    (htype : Descriptor.isArray type = true) (hone : c.symbols.length = 1) :
    Grown pc [.resolve ref (.fresh p type), .assume c]
      { clauses := pc.clauses ++ [.resolve ref (.fresh p type), .assume c]
        resolved := (ref.number, pc.size) :: pc.resolved
        expanded := (p, pc.size) :: pc.expanded }

section Calls

variable (pc : PathCondition)

theorem checkBoolean_cases (c : Option Term) :
    (∃ e, (checkBoolean c).runOn pc = (.error e, pc)) ∨
      ∃ t, c = some t ∧ (checkBoolean c).runOn pc = (.ok t, pc) := by
  cases c with
  | none => exact .inl ⟨_, rfl⟩
  | some t =>
      by_cases ht : t.type = .boolean
      · exact .inr ⟨t, rfl, by rw [checkBoolean, if_pos ht, ConditionM.runOn_pure]⟩
      · exact .inl ⟨_, by rw [checkBoolean, if_neg ht, ConditionM.runOn_throw]⟩

theorem checkLength_cases (c : Option Term) :
    (∃ e, (checkLength c).runOn pc = (.error e, pc)) ∨
      ∃ t, c = some t ∧ t.symbols.length = 1 ∧ (checkLength c).runOn pc = (.ok t, pc) := by
  unfold checkLength
  rcases checkBoolean_cases pc c with ⟨e, he⟩ | ⟨t, hc, ht⟩
  · exact .inl ⟨e, by rw [ConditionM.runOn_bind, he, andThen_error]⟩
  · rw [ConditionM.runOn_bind, ht, andThen_ok]
    by_cases hone : t.symbols.length = 1
    · exact .inr ⟨t, hc, hone, by rw [if_pos hone, ConditionM.runOn_pure]⟩
    · exact .inl ⟨_, by rw [if_neg hone, ConditionM.runOn_throw]⟩

theorem checkUnresolved_cases (ref : Option RefSymbol) :
    (∃ e, (checkUnresolved ref).runOn pc = (.error e, pc)) ∨
      ∃ r, ref = some r ∧ pc.resolvingClause? r.number = none ∧
        (checkUnresolved ref).runOn pc = (.ok r, pc) := by
  cases ref with
  | none => exact .inl ⟨_, rfl⟩
  | some r =>
      simp only [checkUnresolved, ConditionM.runOn_bind, ConditionM.runOn_get, andThen_ok]
      cases hr : pc.resolvingClause? r.number with
      | some earlier => exact .inl ⟨_, rfl⟩
      | none => exact .inr ⟨r, rfl, hr, rfl⟩

theorem runOn_append (c : Clause) :
    (append c).runOn pc = (.ok (), { pc with clauses := pc.clauses ++ [c] }) :=
  rfl

theorem runOn_appendResolving (ref : RefSymbol) (how : Resolution) :
    (appendResolving ref how).runOn pc
      = (.ok (), { pc with
          clauses := pc.clauses ++ [.resolve ref how]
          resolved := (ref.number, pc.size) :: pc.resolved }) :=
  rfl

/-- A reference that is not resolved can be expanded at a position that is
    free. -/
theorem runOn_expand {ref : RefSymbol} {p : Int} (hnew : pc.resolvingClause? ref.number = none)
    (hfree : pc.expandingClause? p = none) (type : String) :
    (expand (some ref) p type).runOn pc
      = (.ok (), { clauses := pc.clauses ++ [.resolve ref (.fresh p type)]
                   resolved := (ref.number, pc.size) :: pc.resolved
                   expanded := (p, pc.size) :: pc.expanded }) := by
  simp only [expand, checkUnresolved, ConditionM.runOn_bind, ConditionM.runOn_get, andThen_ok, hnew,
    ConditionM.runOn_pure, hfree, ConditionM.runOn_modify]
  rfl

theorem expand_cases (ref : Option RefSymbol) (p : Int) (type : String) :
    (∃ e, (expand ref p type).runOn pc = (.error e, pc)) ∨
      ∃ r, ref = some r ∧ pc.resolvingClause? r.number = none ∧
        pc.expandingClause? p = none ∧
        (expand ref p type).runOn pc
          = (.ok (), { clauses := pc.clauses ++ [.resolve r (.fresh p type)]
                       resolved := (r.number, pc.size) :: pc.resolved
                       expanded := (p, pc.size) :: pc.expanded }) := by
  rcases checkUnresolved_cases pc ref with ⟨e, he⟩ | ⟨r, rfl, hnew, hrun⟩
  · exact .inl ⟨e, by rw [expand, ConditionM.runOn_bind, he, andThen_error]⟩
  · cases hp : pc.expandingClause? p with
    | none => exact .inr ⟨r, rfl, hnew, rfl, runOn_expand pc hnew hp type⟩
    | some earlier =>
        refine .inl ⟨.occupied p earlier, ?_⟩
        simp only [expand, ConditionM.runOn_bind, hrun, andThen_ok, ConditionM.runOn_get, hp,
          ConditionM.runOn_throw]

/-- Expanding a reference to an object succeeds if it can be expanded at all. -/
theorem assumeExpands_grown {ref : RefSymbol} {p : Int} {type : String}
    (htype : Descriptor.isArray type = false) (hnew : pc.resolvingClause? ref.number = none)
    (hfree : pc.expandingClause? p = none) :
    ∃ pc', (assumeExpands (some ref) p type).runOn pc = (.ok (), pc') ∧
      pc.Grown [.resolve ref (.fresh p type)] pc' := by
  refine ⟨_, ?_, .object hnew hfree htype⟩
  rw [assumeExpands, if_neg (by rw [htype]; exact Bool.false_ne_true), runOn_expand pc hnew hfree]

/-- The same for an array, if the condition on its length is boolean and has one
    symbol. -/
theorem assumeExpandsArray_grown {ref : RefSymbol} {p : Int} {type : String} {c : Term}
    (htype : Descriptor.isArray type = true) (hboolean : c.type = .boolean)
    (hone : c.symbols.length = 1) (hnew : pc.resolvingClause? ref.number = none)
    (hfree : pc.expandingClause? p = none) :
    ∃ pc', (assumeExpandsArray (some ref) p type (some c)).runOn pc = (.ok (), pc') ∧
      pc.Grown [.resolve ref (.fresh p type), .assume c] pc' := by
  refine ⟨_, ?_, .array hnew hfree htype hone⟩
  simp only [assumeExpandsArray, htype, Bool.not_true, Bool.false_eq_true, if_false, checkLength,
    checkBoolean, hboolean, if_true, ConditionM.runOn_bind, ConditionM.runOn_pure, andThen_ok,
    hone, runOn_expand pc hnew hfree, runOn_append, List.append_assoc, List.singleton_append]

end Calls

end PathCondition

/-- A call that makes an assumption, with what it is given. -/
inductive Assumption where
  /-- A condition holds. -/
  | holds (condition : Option Term)
  /-- A reference is null. -/
  | isNull (ref : Option RefSymbol)
  /-- A reference points to an object created for it. -/
  | expands (ref : Option RefSymbol) (position : Int) (type : String)
  /-- A reference points to an array created for it. -/
  | expandsArray (ref : Option RefSymbol) (position : Int) (type : String) (length : Option Term)
  /-- A reference points to an object created earlier. -/
  | aliases (ref : Option RefSymbol) (position : Int)
  /-- A class was initialised before the path began. -/
  | initialized (type : String)

namespace Assumption

/-- Makes the assumption. -/
def make : Assumption → ConditionM Unit
  | holds c => PathCondition.assume c
  | isNull ref => PathCondition.assumeNull ref
  | expands ref p type => PathCondition.assumeExpands ref p type
  | expandsArray ref p type length => PathCondition.assumeExpandsArray ref p type length
  | aliases ref p => PathCondition.assumeAliases ref p
  | initialized type => PathCondition.assumeInitialized type

/-- The clauses that say what is assumed. Without a reference or a condition
    nothing is. -/
def clauses : Assumption → List Clause
  | holds (some c) => [.assume c]
  | isNull (some ref) => [.resolve ref .null]
  | expands (some ref) p type => [.resolve ref (.fresh p type)]
  | expandsArray (some ref) p type (some c) => [.resolve ref (.fresh p type), .assume c]
  | aliases (some ref) p => [.resolve ref (.aliasOf p)]
  | initialized type => [.initialized type]
  | _ => []

open PathCondition in
/-- A call fails and changes nothing, or it adds the clauses that say what is
    assumed. -/
theorem make_cases (a : Assumption) (pc : PathCondition) :
    (∃ e, a.make.runOn pc = (.error e, pc)) ∨
      ∃ pc', a.make.runOn pc = (.ok (), pc') ∧ pc.Grown a.clauses pc' := by
  cases a with
  | holds c =>
      rcases checkBoolean_cases pc c with ⟨e, he⟩ | ⟨t, rfl, ht⟩
      · exact .inl ⟨e, by rw [make, PathCondition.assume, ConditionM.runOn_bind, he, andThen_error]⟩
      · exact .inr ⟨_, by rw [make, PathCondition.assume, ConditionM.runOn_bind, ht, andThen_ok,
          runOn_append], .plain rfl⟩
  | isNull ref =>
      rcases checkUnresolved_cases pc ref with ⟨e, he⟩ | ⟨r, rfl, hnew, hr⟩
      · exact .inl ⟨e, by rw [make, assumeNull, ConditionM.runOn_bind, he, andThen_error]⟩
      · exact .inr ⟨_, by rw [make, assumeNull, ConditionM.runOn_bind, hr, andThen_ok,
          runOn_appendResolving], .settled hnew (.inl rfl)⟩
  | expands ref p type =>
      by_cases htype : Descriptor.isArray type = true
      · exact .inl ⟨_, by rw [make, assumeExpands, if_pos htype, ConditionM.runOn_throw]⟩
      · rcases expand_cases pc ref p type with ⟨e, he⟩ | ⟨r, rfl, hnew, hfree, hr⟩
        · exact .inl ⟨e, by rw [make, assumeExpands, if_neg htype, he]⟩
        · exact .inr ⟨_, by rw [make, assumeExpands, if_neg htype, hr],
            .object hnew hfree (Bool.not_eq_true _ ▸ htype)⟩
  | expandsArray ref p type length =>
      by_cases htype : Descriptor.isArray type = true
      · have hnot : ¬ (!Descriptor.isArray type) = true := by
          rw [htype]
          exact Bool.false_ne_true
        rw [make, assumeExpandsArray, if_neg hnot, ConditionM.runOn_bind]
        rcases checkLength_cases pc length with ⟨e, he⟩ | ⟨t, rfl, hone, ht⟩
        · exact .inl ⟨e, by rw [he, andThen_error]⟩
        · rw [ht, andThen_ok, ConditionM.runOn_bind]
          rcases expand_cases pc ref p type with ⟨e, he⟩ | ⟨r, rfl, hnew, hfree, hr⟩
          · exact .inl ⟨e, by rw [he, andThen_error]⟩
          · refine .inr ⟨_, ?_, .array hnew hfree htype hone⟩
            rw [hr, andThen_ok, runOn_append, List.append_assoc, List.singleton_append]
      · refine .inl ⟨.notArray type, ?_⟩
        rw [make, assumeExpandsArray, if_pos (by rw [Bool.not_eq_true] at htype; rw [htype]; rfl),
          ConditionM.runOn_throw]
  | aliases ref p =>
      rw [make, assumeAliases, ConditionM.runOn_bind]
      rcases checkUnresolved_cases pc ref with ⟨e, he⟩ | ⟨r, rfl, hnew, hr⟩
      · exact .inl ⟨e, by rw [he, andThen_error]⟩
      · rw [hr, andThen_ok, ConditionM.runOn_bind, ConditionM.runOn_get, andThen_ok]
        cases hp : pc.expandingClause? p with
        | none => exact .inl ⟨_, rfl⟩
        | some earlier => exact .inr ⟨_, rfl, .settled hnew (.inr ⟨p, earlier, rfl, hp⟩)⟩
  | initialized type => exact .inr ⟨_, rfl, .plain rfl⟩

end Assumption

namespace PathCondition

variable {pc pc' : PathCondition}

theorem Consistent.empty : Consistent {} where
  resolved := fun k i => by
    simp only [List.lookup_nil, List.getElem?_nil, reduceCtorEq, false_and, exists_false]
  expanded := fun k i => by
    simp only [List.lookup_nil, List.getElem?_nil, reduceCtorEq, false_and, exists_false]
  aliases := fun i ref p h => absurd h (by simp only [List.getElem?_nil, reduceCtorEq,
    not_false_eq_true])
  lengths := fun i ref p type h => absurd h (by simp only [List.getElem?_nil, reduceCtorEq,
    not_false_eq_true])

theorem Consistent.grown (h : pc.Consistent) {added : List Clause} (hgrown : pc.Grown added pc') :
    pc'.Consistent := by
  cases hgrown with
  | @plain c hc =>
      -- A clause that resolves nothing has neither key.
      have hnone : ∀ ref how, c ≠ .resolve ref how := by
        rintro ref how rfl
        exact absurd hc (by simp only [Clause.resolution?, reduceCtorEq, not_false_eq_true])
      have hresolved : c.resolvedNumber? = none := by
        cases c with
        | resolve ref how => exact absurd rfl (hnone ref how)
        | assume t => rfl
        | initialized type => rfl
      have hexpanded : c.expandedPosition? = none := by
        cases c with
        | resolve ref how => exact absurd rfl (hnone ref how)
        | assume t => rfl
        | initialized type => rfl
      exact {
        resolved := h.resolved.snoc_other hresolved
        expanded := h.expanded.snoc_other hexpanded
        aliases := h.aliases.snoc fun ref p hc' => absurd hc' (hnone ref _)
        lengths := h.lengths.snoc fun ref p type hc' => absurd hc' (hnone ref _) }
  | @settled ref how hnew hhow =>
      -- The clause has a reference and no position of its own.
      have hexpanded : (Clause.resolve ref how).expandedPosition? = none := by
        rcases hhow with rfl | ⟨p, earlier, rfl, _⟩ <;> rfl
      refine {
        resolved := h.resolved.snoc_new rfl (h.resolved.lookup_none hnew)
        expanded := h.expanded.snoc_other hexpanded
        aliases := h.aliases.snoc fun ref' p hc => ?_
        lengths := h.lengths.snoc fun ref' p type hc => ?_ }
      · rcases hhow with rfl | ⟨q, earlier, rfl, hq⟩
        · exact absurd hc (by simp only [Clause.resolve.injEq, reduceCtorEq, and_false,
            not_false_eq_true])
        · -- The alias was checked against the index of positions.
          obtain ⟨-, hqp⟩ := Clause.resolve.inj hc
          rcases Option.bind_eq_some_iff.1 hq with ⟨j, hj, _⟩
          rcases (h.expanded q j).1 hj with ⟨c, hcj, hkey⟩
          rcases eq_fresh_of_expandedPosition hkey with ⟨r, type, rfl⟩
          exact ⟨j, r, type, Resolution.aliasOf.inj hqp ▸ hcj⟩
      · rw [hc] at hexpanded
        exact absurd hexpanded (by simp only [Clause.expandedPosition?, reduceCtorEq,
          not_false_eq_true])
  | object hnew hfree htype =>
      -- One clause with both keys, and an entry for each.
      refine {
        resolved := h.resolved.snoc_new rfl (h.resolved.lookup_none hnew)
        expanded := h.expanded.snoc_new rfl (h.expanded.lookup_none hfree)
        aliases := h.aliases.snoc fun ref' p hc => ?_
        lengths := h.lengths.snoc fun ref' p type hc => ?_ }
      · exact absurd hc (by simp only [Clause.resolve.injEq, reduceCtorEq, and_false,
          not_false_eq_true])
      · rw [← (Resolution.fresh.inj (Clause.resolve.inj hc).2).2]
        exact htype
  | @array ref p type c hnew hfree htype hone =>
      -- Two clauses of which only the first has keys. That it is an array rules
      -- out `LengthsFollow.snoc` for it alone.
      have hsplit : pc.clauses ++ [.resolve ref (.fresh p type), .assume c]
          = (pc.clauses ++ [.resolve ref (.fresh p type)]) ++ [.assume c] := by
        rw [List.append_assoc, List.singleton_append]
      refine {
        resolved := ?_
        expanded := ?_
        aliases := ?_
        lengths := h.lengths.snoc_array hone }
      · simp only [hsplit]
        exact (h.resolved.snoc_new rfl (h.resolved.lookup_none hnew)).snoc_other rfl
      · simp only [hsplit]
        exact (h.expanded.snoc_new rfl (h.expanded.lookup_none hfree)).snoc_other rfl
      · simp only [hsplit]
        refine (h.aliases.snoc fun ref' q hc => ?_).snoc fun ref' q hc => ?_
        · exact absurd hc (by simp only [Clause.resolve.injEq, reduceCtorEq, and_false,
            not_false_eq_true])
        · exact absurd hc (by simp only [reduceCtorEq, not_false_eq_true])

/-- The reader of resolutions finds the clause that resolves a reference. -/
theorem Consistent.resolution?_eq (h : pc.Consistent) {ref : RefSymbol} {how : Resolution}
    (hc : .resolve ref how ∈ pc.clauses) : pc.resolution? ref.number = some (ref, how) := by
  rcases List.mem_iff_getElem?.1 hc with ⟨i, hi⟩
  have hlookup := (h.resolved ref.number i).2 ⟨_, hi, rfl⟩
  rw [resolution?, resolvingClause?, hlookup, Option.bind_some, hi, Option.bind_some,
    Clause.resolution?]

/-- What the reader of resolutions finds is in a clause. -/
theorem Consistent.mem_of_resolution? (h : pc.Consistent) {n : Nat} {ref : RefSymbol}
    {how : Resolution} (hsome : pc.resolution? n = some (ref, how)) :
    .resolve ref how ∈ pc.clauses ∧ ref.number = n := by
  rcases Option.bind_eq_some_iff.1 hsome with ⟨c, hc, hres⟩
  rcases Option.bind_eq_some_iff.1 hc with ⟨i, hi, hci⟩
  rcases (h.resolved n i).1 hi with ⟨d, hd, hnumber⟩
  rcases eq_resolve_of_resolvedNumber hnumber with ⟨ref', how', rfl, href⟩
  rw [hd] at hci
  rw [← Option.some.inj hci] at hres
  obtain ⟨rfl, rfl⟩ := Prod.mk.inj (Option.some.inj hres)
  exact ⟨List.mem_of_getElem? hd, href⟩

/-- The reader of expansions finds the clause that created an object. -/
theorem Consistent.expansion?_eq (h : pc.Consistent) {ref : RefSymbol} {p : Int} {type : String}
    (hc : .resolve ref (.fresh p type) ∈ pc.clauses) :
    pc.expansion? p = some (ref, .fresh p type) := by
  rcases List.mem_iff_getElem?.1 hc with ⟨i, hi⟩
  have hlookup := (h.expanded p i).2 ⟨_, hi, rfl⟩
  rw [expansion?, expandingClause?, hlookup, Option.bind_some, hi, Option.bind_some,
    Clause.resolution?]

/-- When the reader of resolutions finds nothing, no clause resolves the
    reference. -/
theorem Consistent.resolvingClause?_none (h : pc.Consistent) {n : Nat}
    (hnone : pc.resolution? n = none) : pc.resolvingClause? n = none := by
  cases hc : pc.resolvingClause? n with
  | none => rfl
  | some c =>
      rcases Option.bind_eq_some_iff.1 hc with ⟨i, hi, hci⟩
      rcases (h.resolved n i).1 hi with ⟨d, hd, hn⟩
      rcases eq_resolve_of_resolvedNumber hn with ⟨ref, how, rfl, _⟩
      rw [hd] at hci
      rw [resolution?, hc, Option.bind_some, ← Option.some.inj hci] at hnone
      exact absurd hnone (by simp only [Clause.resolution?, reduceCtorEq, not_false_eq_true])

/-- A position at which no clause created an object is free. -/
theorem Consistent.expandingClause?_none (h : pc.Consistent) {p : Int}
    (hnone : ∀ ref type, .resolve ref (.fresh p type) ∉ pc.clauses) :
    pc.expandingClause? p = none := by
  cases hc : pc.expandingClause? p with
  | none => rfl
  | some c =>
      rcases Option.bind_eq_some_iff.1 hc with ⟨i, hi, _⟩
      rcases (h.expanded p i).1 hi with ⟨d, hd, hp⟩
      rcases eq_fresh_of_expandedPosition hp with ⟨ref, type, rfl⟩
      exact absurd (List.mem_of_getElem? hd) (hnone ref type)

/-- Growing adds clauses at the end and entries at the front, and changes none
    that are there. -/
theorem Grown.extends {added : List Clause} (h : pc.Grown added pc') :
    pc'.clauses = pc.clauses ++ added ∧ pc.resolved <:+ pc'.resolved ∧
      pc.expanded <:+ pc'.expanded := by
  cases h with
  | plain hc => exact ⟨rfl, List.suffix_refl _, List.suffix_refl _⟩
  | settled hnew hhow => exact ⟨rfl, List.suffix_cons _ _, List.suffix_refl _⟩
  | object hnew hfree htype => exact ⟨rfl, List.suffix_cons _ _, List.suffix_cons _ _⟩
  | array hnew hfree htype hone => exact ⟨rfl, List.suffix_cons _ _, List.suffix_cons _ _⟩

/-- A call keeps a path condition consistent, whether it succeeds or fails. -/
theorem Consistent.make (h : pc.Consistent) (a : Assumption) : (a.make.runOn pc).2.Consistent := by
  rcases a.make_cases pc with ⟨e, he⟩ | ⟨pc', hok, hgrown⟩
  · rw [he]
    exact h
  · rw [hok]
    exact h.grown hgrown

end PathCondition

/-- A step in the use of several path conditions: a call on one of them, or a
    copy of one, which is then used by itself. -/
inductive PoolStep where
  | call (index : Nat) (assumption : Assumption)
  | copy (index : Nat)

/-- The path conditions after a step. -/
def PoolStep.perform (pool : List PathCondition) : PoolStep → List PathCondition
  | call i a => pool.modify i fun pc => (a.make.runOn pc).2
  | copy i => pool ++ pool[i]?.toList

/-- A step keeps all path conditions consistent. -/
theorem PoolStep.perform_consistent {pool : List PathCondition}
    (h : ∀ pc ∈ pool, pc.Consistent) (step : PoolStep) :
    ∀ pc ∈ step.perform pool, pc.Consistent := by
  intro pc hpc
  cases step with
  | call i a =>
      rcases List.mem_iff_getElem?.1 hpc with ⟨j, hj⟩
      rw [PoolStep.perform, List.getElem?_modify] at hj
      rcases Option.map_eq_some_iff.1 hj with ⟨old, hold, rfl⟩
      have hconsistent := h old (List.mem_of_getElem? hold)
      -- Only the path condition the call is made on has changed.
      by_cases hij : i = j
      · simp only [if_pos hij]
        exact hconsistent.make a
      · simp only [if_neg hij]
        exact hconsistent
  | copy i =>
      rcases List.mem_append.1 hpc with hpc | hpc
      · exact h pc hpc
      · exact h pc (List.mem_of_getElem? (Option.mem_toList.1 hpc))

/-- Any steps keep all path conditions consistent. -/
theorem foldl_perform_consistent {pool : List PathCondition} (h : ∀ pc ∈ pool, pc.Consistent)
    (steps : List PoolStep) : ∀ pc ∈ steps.foldl PoolStep.perform pool, pc.Consistent := by
  induction steps generalizing pool with
  | nil => exact h
  | cons step rest ih => exact ih (step.perform_consistent h)

/-- After any calls and copies, starting from one path condition without
    clauses, these hold of every path condition there is. No reference is
    resolved twice and no position expanded twice, and the indexes lead exactly
    to the clauses that do so. Aliases stand after the clauses that created
    their objects, and new arrays right before conditions with one symbol. A
    further call that fails changes nothing, and one that succeeds adds the
    clauses that say what is assumed and keeps all there is. -/
theorem pool_consistent (steps : List PoolStep) :
    ∀ pc ∈ steps.foldl PoolStep.perform [{}],
      ((∀ (i j : Nat) c d n, pc.clauses[i]? = some c → pc.clauses[j]? = some d →
          c.resolvedNumber? = some n → d.resolvedNumber? = some n → i = j) ∧
        ∀ n i, pc.resolved.lookup n = some i ↔
          ∃ ref how, pc.clauses[i]? = some (.resolve ref how) ∧ ref.number = n) ∧
      ((∀ (i j : Nat) c d p, pc.clauses[i]? = some c → pc.clauses[j]? = some d →
          c.expandedPosition? = some p → d.expandedPosition? = some p → i = j) ∧
        ∀ p i, pc.expanded.lookup p = some i ↔
          ∃ ref type, pc.clauses[i]? = some (.resolve ref (.fresh p type))) ∧
      AliasesFollow pc.clauses ∧ LengthsFollow pc.clauses ∧
      ∀ a : Assumption,
        (∃ e, a.make.runOn pc = (.error e, pc)) ∨
        ∃ pc', a.make.runOn pc = (.ok (), pc') ∧ pc'.clauses = pc.clauses ++ a.clauses ∧
          pc.resolved <:+ pc'.resolved ∧ pc.expanded <:+ pc'.expanded := by
  intro pc hpc
  have h : pc.Consistent := by
    refine foldl_perform_consistent (fun pc' hpc' => ?_) steps pc hpc
    rw [List.mem_singleton.1 hpc']
    exact PathCondition.Consistent.empty
  refine ⟨⟨fun i j c d n => h.resolved.unique, fun n i => ?_⟩,
    ⟨fun i j c d p => h.expanded.unique, fun p i => ?_⟩, h.aliases, h.lengths, fun a => ?_⟩
  · rw [h.resolved n i]
    refine ⟨fun ⟨c, hc, hn⟩ => ?_, fun ⟨ref, how, hc, hn⟩ => ⟨_, hc, congrArg some hn⟩⟩
    rcases eq_resolve_of_resolvedNumber hn with ⟨ref, how, rfl, hnumber⟩
    exact ⟨ref, how, hc, hnumber⟩
  · rw [h.expanded p i]
    refine ⟨fun ⟨c, hc, hp⟩ => ?_, fun ⟨ref, type, hc⟩ => ⟨_, hc, rfl⟩⟩
    rcases eq_fresh_of_expandedPosition hp with ⟨ref, type, rfl⟩
    exact ⟨ref, type, hc⟩
  · rcases a.make_cases pc with hfail | ⟨pc', hok, hgrown⟩
    · exact .inl hfail
    · exact .inr ⟨pc', hok, hgrown.extends⟩

/-- An array is created on one path, and only on a copy of the path does another
    reference point to it. -/
def sharedArray : List PoolStep :=
  let length : PrimSymbol := ⟨1, .int, (Origin.ofRoot "x").push .length⟩
  [.call 0 (.expandsArray (some ⟨0, "[I", .ofRoot "x"⟩) 1 "[I"
      (some (.binary (.comparison .ge) (.symbol length) (.const (.int 0))))),
    .copy 0, .call 1 (.aliases (some ⟨2, "[I", .ofRoot "y"⟩) 1)]

/-- The copy has all three clauses, each where it belongs. -/
theorem pool_consistent_array :
    ∃ pc ∈ sharedArray.foldl PoolStep.perform [{}],
      pc.clauses.length = 3 ∧ AliasesFollow pc.clauses ∧ LengthsFollow pc.clauses := by
  obtain ⟨pc, hpc, hlength⟩ : ∃ pc ∈ sharedArray.foldl PoolStep.perform [{}],
      pc.clauses.length = 3 := ⟨_, List.mem_cons_of_mem _ List.mem_cons_self, rfl⟩
  have h := pool_consistent sharedArray pc hpc
  exact ⟨pc, hpc, hlength, h.2.2.1, h.2.2.2.1⟩

end PathWitness
