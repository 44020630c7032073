import Mathlib.Data.List.Perm.Basic
import Mathlib.Data.List.Sort
import PathWitness.Proofs.Evaluation
import PathWitness.Proofs.PathState.Lookup
import PathWitness.Scenario.Run

/-!
# Models That Scripts Give

A script gives values as texts: an origin, and a literal for the symbol that is there
when the path has ended. The entries are put into a model one after another, and they
have no order of their own. So the model is only determined if the order does not
matter.

It does matter in one case. An entry does nothing but set the value of one symbol, or it
is passed over, whatever was set before. Entries for different symbols therefore commute,
and so do entries that agree. But different texts can mean one symbol, with and without
the root mark or by way of two references to one object. Of two entries that give it
different values the later one wins.

## Main definitions

* `GivesTo`: An entry gives a constant to a symbol.
* `GivesAt`: The same with the number that the model keeps, in the symbol's type.
* `acceptable`: An entry without an error.

## Theorems

* `Model.eq_of_get?`: Models that agree on every number are equal.
* `addGiven_cases`: What an entry does.
* `given_comm`: Entries that agree commute.
* `givenModel_perm_iff`: When the order of the entries does not matter.
* `later_entry_wins`: An order that matters.
-/

namespace PathWitness

variable {s : PathState} {m m' : Model} {n : Nat} {c : Const} {e e' : String × String}
  {entries es : List (String × String)}

namespace Model

theorem lookup_eq_some_iff {l : List (Nat × Const)} (h : l.Pairwise (·.1 < ·.1)) :
    l.lookup n = some c ↔ (n, c) ∈ l := by
  induction l with
  | nil => simp
  | cons a rest ih =>
      rcases a with ⟨k, d⟩
      obtain ⟨hrest, hpairwise⟩ := List.pairwise_cons.1 h
      rw [List.lookup_cons, List.mem_cons, Prod.mk.injEq]
      by_cases hn : n = k
      · -- The number does not come again.
        subst hn
        have hnot : (n, c) ∉ rest := fun hmem => Nat.lt_irrefl n (hrest (n, c) hmem)
        simp [hnot, eq_comm]
      · have hne : (n == k) = false := beq_eq_false_iff_ne.2 hn
        simp [hne, hn, ih hpairwise]

theorem mem_entries_iff : (n, c) ∈ m.entries ↔ m.get? n = some c :=
  (lookup_eq_some_iff m.ascending).symm

/-- Models that agree on every number are equal. -/
theorem eq_of_get? (h : ∀ n, m.get? n = m'.get? n) : m = m' := by
  have hmem : ∀ e, e ∈ m.entries ↔ e ∈ m'.entries := by
    rintro ⟨n, c⟩
    rw [mem_entries_iff, mem_entries_iff, h n]
  have hnodup : ∀ m : Model, m.entries.Nodup := fun m => m.ascending.imp fun hlt heq => by
    rw [heq] at hlt
    exact Nat.lt_irrefl _ hlt
  have hperm : m.entries.Perm m'.entries :=
    (List.perm_ext_iff_of_nodup (hnodup m) (hnodup m')).2 hmem
  -- Both lists ascend, so there is one order for their entries.
  have hentries : m.entries = m'.entries := by
    refine hperm.eq_of_pairwise ?_ m.ascending m'.ascending
    intro a b _ _ hab hba
    exact absurd (Nat.lt_trans hab hba) (Nat.lt_irrefl _)
  cases m
  cases m'
  congr

end Model

/-- An entry gives a constant to a symbol of the path. -/
def GivesTo (s : PathState) (e : String × String) (x : PrimSymbol) (c : Const) : Prop :=
  ∃ o, Origin.parse e.1 = .ok o ∧
    ((PathState.lookup o).runOn s).1 = .ok (some (.term (.symbol x))) ∧
    Const.ofLiteral x.type.descriptor e.2 = .ok c

theorem GivesTo.unique {x x' : PrimSymbol} {c c' : Const} (h : GivesTo s e x c)
    (h' : GivesTo s e x' c') : x = x' ∧ c = c' := by
  obtain ⟨o, ho, hx, hc⟩ := h
  obtain ⟨o', ho', hx', hc'⟩ := h'
  rw [ho] at ho'
  obtain rfl := Except.ok.inj ho'
  rw [hx] at hx'
  obtain rfl : x = x' := by simpa using hx'
  rw [hc] at hc'
  exact ⟨rfl, Except.ok.inj hc'⟩

/-- The entry can be added without an error. -/
def acceptable (s : PathState) (e : String × String) : Bool :=
  (addGiven s .empty e).1.isOk

/-- An entry is passed over or gives a value to one symbol, whatever else is given. -/
theorem addGiven_cases (h : acceptable s e = true) :
    (∀ m₁, (addGiven s m₁ e).1 = .ok m₁) ∧ (∀ x c, ¬ GivesTo s e x c) ∨
      ∃ x c, GivesTo s e x c ∧ ∀ m₁, (addGiven s m₁ e).1 = .ok (m₁.set x c) := by
  obtain ⟨m', hm'⟩ : ∃ m', (addGiven s .empty e).1 = .ok m' := by
    cases hr : (addGiven s .empty e).1 with
    | error fault => simp [acceptable, hr, Except.isOk, Except.toBool] at h
    | ok m' => exact ⟨m', rfl⟩
  cases ho : Origin.parse e.1 with
  | error fault => simp [addGiven, ho] at hm'
  | ok o =>
      rcases hv : ((PathState.lookup o).runOn s).1 with fault | v
      · -- The origin does not exist on the path.
        refine .inl ⟨fun m₁ => by simp [addGiven, ho, hv], ?_⟩
        rintro x c ⟨o', ho', hx, -⟩
        rw [ho] at ho'
        obtain rfl := Except.ok.inj ho'
        rw [hv] at hx
        cases hx
      · simp only [addGiven, ho, hv] at hm'
        split at hm'
        · rename_i heq
          cases heq
        · rename_i x heq
          obtain rfl := Except.ok.inj heq
          cases hc : Const.ofLiteral x.type.descriptor e.2 with
          | error fault => simp [hc] at hm'
          | ok c => exact .inr ⟨x, c, ⟨o, ho, hv, hc⟩, fun m₁ => by simp [addGiven, ho, hv, hc]⟩
        · cases hm'

/-- An entry has a value for a number, as the model keeps it. -/
def GivesAt (s : PathState) (e : String × String) (n : Nat) (c : Const) : Prop :=
  ∃ x c', GivesTo s e x c' ∧ x.number = n ∧ c = c'.convert x.type

/-- The model with what an entry gives. -/
def given (s : PathState) (m : Model) (e : String × String) : Model :=
  ((addGiven s m e).1.toOption).getD m

theorem addGiven_eq (h : acceptable s e = true) (m : Model) :
    (addGiven s m e).1 = .ok (given s m e) := by
  rcases addGiven_cases h with ⟨hpassed, -⟩ | ⟨x, c, -, hset⟩
  · rw [given, hpassed m]
    rfl
  · rw [given, hset m]
    rfl

theorem givenModel_cons {events : List Event} (h : addGiven s m e = (.ok m', events))
    (j : Journal) : givenModel s (e :: es) m j = givenModel s es m' (events ++ j) := by
  conv_lhs => unfold givenModel
  rw [h]

theorem givenModel_eq (h : ∀ e ∈ es, acceptable s e = true) (m : Model)
    (j : Journal) : (givenModel s es m j).1 = .ok (es.foldl (given s) m) := by
  induction es generalizing m j with
  | nil => rfl
  | cons e rest ih =>
      have hadd := addGiven_eq (h e List.mem_cons_self) m
      rcases hr : addGiven s m e with ⟨r, events⟩
      rw [hr] at hadd
      obtain rfl : r = .ok (given s m e) := hadd
      rw [givenModel_cons hr, List.foldl_cons]
      exact ih (fun e' he' => h e' (List.mem_cons_of_mem _ he')) _ _

theorem get?_given_of_givesAt (h : acceptable s e = true) (m : Model) (hc : GivesAt s e n c) :
    (given s m e).get? n = some c := by
  obtain ⟨x, d, hgives, rfl, rfl⟩ := hc
  rcases addGiven_cases h with ⟨-, hnone⟩ | ⟨x', d', hgives', hset⟩
  · exact absurd hgives (hnone x d)
  · obtain ⟨rfl, rfl⟩ := hgives.unique hgives'
    rw [given, hset m]
    exact Model.get?_set_self m x d

theorem get?_given_of_not (h : acceptable s e = true) (m : Model) (hnone : ∀ c, ¬ GivesAt s e n c) :
    (given s m e).get? n = m.get? n := by
  rcases addGiven_cases h with ⟨hpassed, -⟩ | ⟨x, d, hgives, hset⟩
  · rw [given, hpassed m]
    rfl
  · rw [given, hset m]
    refine Model.get?_set_other m x d fun hn => ?_
    exact hnone _ ⟨x, d, hgives, hn.symm, rfl⟩

/-- Where entries agree, it does not matter which comes first. -/
theorem given_comm (h : acceptable s e = true) (h' : acceptable s e' = true)
    (hagree : ∀ n c c', GivesAt s e n c → GivesAt s e' n c' → c = c') (m : Model) :
    given s (given s m e) e' = given s (given s m e') e := by
  refine Model.eq_of_get? fun n => ?_
  by_cases hc : ∃ c, GivesAt s e n c
  · obtain ⟨c, hc⟩ := hc
    rw [get?_given_of_givesAt h _ hc]
    by_cases hc' : ∃ c', GivesAt s e' n c'
    · obtain ⟨c', hc'⟩ := hc'
      rw [get?_given_of_givesAt h' _ hc', hagree n c c' hc hc']
    · rw [get?_given_of_not h' _ (not_exists.1 hc'), get?_given_of_givesAt h _ hc]
  · rw [get?_given_of_not h _ (not_exists.1 hc)]
    by_cases hc' : ∃ c', GivesAt s e' n c'
    · obtain ⟨c', hc'⟩ := hc'
      rw [get?_given_of_givesAt h' _ hc', get?_given_of_givesAt h' _ hc']
    · rw [get?_given_of_not h' _ (not_exists.1 hc'), get?_given_of_not h' _ (not_exists.1 hc'),
        get?_given_of_not h _ (not_exists.1 hc)]

/-- A number has a value that some entry gives, unless none gives any. -/
theorem get?_foldl_given (h : ∀ e ∈ es, acceptable s e = true) (m : Model) (n : Nat) :
    (∃ e ∈ es, ∃ c, GivesAt s e n c ∧ (es.foldl (given s) m).get? n = some c) ∨
      (∀ e ∈ es, ∀ c, ¬ GivesAt s e n c) ∧ (es.foldl (given s) m).get? n = m.get? n := by
  induction es generalizing m with
  | nil => exact .inr ⟨by simp, rfl⟩
  | cons e rest ih =>
      -- An entry of the rest has the last word if there is one for the number.
      rw [List.foldl_cons]
      rcases ih (fun e' he' => h e' (List.mem_cons_of_mem _ he')) (given s m e) with
        ⟨e', he', c, hc, hget⟩ | ⟨hnone, hget⟩
      · exact .inl ⟨e', List.mem_cons_of_mem _ he', c, hc, hget⟩
      · have haccepted := h e List.mem_cons_self
        rw [hget]
        by_cases hc : ∃ c, GivesAt s e n c
        · obtain ⟨c, hc⟩ := hc
          exact .inl ⟨e, List.mem_cons_self, c, hc, get?_given_of_givesAt haccepted m hc⟩
        · refine .inr ⟨?_, get?_given_of_not haccepted m (not_exists.1 hc)⟩
          intro e' he' c
          rcases List.mem_cons.1 he' with rfl | he'
          · exact not_exists.1 hc c
          · exact hnone e' he' c

/-- Every entry is the last one in some order, and then it has its way. -/
theorem get?_of_last (h : ∀ e ∈ entries, acceptable s e = true) (he : e ∈ entries)
    (hc : GivesAt s e n c) :
    ∃ es : List (String × String), es.Perm entries ∧
      (es.foldl (given s) .empty).get? n = some c := by
  refine ⟨entries.erase e ++ [e], (List.perm_append_comm.trans ?_), ?_⟩
  · exact (List.perm_cons_erase he).symm
  · rw [List.foldl_append]
    exact get?_given_of_givesAt (h e he) _ hc

/-- Entries without an error give a model in any order, with values that entries give for
    the symbols that entries have. All orders give the same model if and only if no two
    entries give a symbol different values. An ended path does not change on the way. -/
theorem givenModel_perm_iff (haccepted : ∀ e ∈ entries, acceptable s e = true) :
    (∀ es, es.Perm entries → ∀ j, ∃ m, (givenModel s es .empty j).1 = .ok m ∧
      (∀ n c, m.get? n = some c → ∃ e ∈ entries, GivesAt s e n c) ∧
      ∀ e ∈ entries, ∀ n c, GivesAt s e n c → m.get? n ≠ none) ∧
    ((∀ es es' j j', es.Perm entries → es'.Perm entries →
        (givenModel s es .empty j).1 = (givenModel s es' .empty j').1) ↔
      ∀ e ∈ entries, ∀ e' ∈ entries, ∀ n c c', GivesAt s e n c → GivesAt s e' n c' → c = c') ∧
    (s.status ≠ .active → ∀ o, ((PathState.lookup o).runOn s).2 = s) := by
  have hperm : ∀ {es : List (String × String)}, es.Perm entries → ∀ e ∈ es, acceptable s e = true :=
    fun hp e he => haccepted e (hp.mem_iff.1 he)
  refine ⟨fun es hes j => ⟨_, givenModel_eq (hperm hes) .empty j, ?_, ?_⟩, ⟨?_, ?_⟩,
    PathState.lookup_of_ended⟩
  · intro n c hget
    rcases get?_foldl_given (hperm hes) .empty n with ⟨e, he, d, hd, hget'⟩ | ⟨-, hget'⟩
    · rw [hget] at hget'
      exact ⟨e, hes.mem_iff.1 he, Option.some.inj hget' ▸ hd⟩
    · rw [hget] at hget'
      cases hget'
  · intro e he n c hc
    rcases get?_foldl_given (hperm hes) .empty n with ⟨e', he', d, -, hget⟩ | ⟨hnone, -⟩
    · simp [hget]
    · exact absurd hc (hnone e (hes.mem_iff.2 he) c)
  · intro hsame e he e' he' n c c' hc hc'
    -- Either entry can be the last one.
    obtain ⟨es, hes, hget⟩ := get?_of_last haccepted he hc
    obtain ⟨es', hes', hget'⟩ := get?_of_last haccepted he' hc'
    have hmodels := hsame es es' [] [] hes hes'
    rw [givenModel_eq (hperm hes), givenModel_eq (hperm hes')] at hmodels
    rw [Except.ok.inj hmodels, hget'] at hget
    exact (Option.some.inj hget).symm
  · intro hagree es es' j j' hes hes'
    rw [givenModel_eq (hperm hes), givenModel_eq (hperm hes')]
    refine congrArg _ ((hes.trans hes'.symm).foldl_eq' ?_ _)
    intro e he e' he' m
    exact given_comm (hperm hes e he) (hperm hes e' he')
      (hagree e (hes.mem_iff.1 he) e' (hes.mem_iff.1 he')) m

/-- The state at the entry of a method with two numbers. -/
def tallyEntry : PathState where
  signature := ⟨"Tally", "(II)V", "add"⟩
  isStatic := true
  frame := [⟨0, "x", "I", .prim ⟨0, .int, .ofRoot "x"⟩⟩,
    ⟨1, "y", "I", .prim ⟨1, .int, .ofRoot "y"⟩⟩]
  symbols := ⟨[.prim ⟨0, .int, .ofRoot "x"⟩, .prim ⟨1, .int, .ofRoot "y"⟩]⟩

/-- The state after the method has returned. -/
def tallied : PathState :=
  { tallyEntry with status := .frozen }

/-- One number is given twice, and something that the path does not have. -/
def talliedEntries : List (String × String) :=
  [("x", "1"), ("y", "2"), ("\x7bROOT\x7d:x", "0x1"), ("z", "7")]

theorem givesAt_tallied (he : e ∈ talliedEntries) (hc : GivesAt tallied e n c) :
    (n, c) ∈ [(0, Const.int 1), (1, Const.int 2)] := by
  have hx : GivesTo tallied ("x", "1") ⟨0, .int, .ofRoot "x"⟩ (.int 1) :=
    ⟨.ofRoot "x", by decide +kernel, rfl, by decide +kernel⟩
  have hx' : GivesTo tallied ("\x7bROOT\x7d:x", "0x1") ⟨0, .int, .ofRoot "x"⟩ (.int 1) :=
    ⟨.ofRoot "x", by decide +kernel, rfl, by decide +kernel⟩
  have hy : GivesTo tallied ("y", "2") ⟨1, .int, .ofRoot "y"⟩ (.int 2) :=
    ⟨.ofRoot "y", by decide +kernel, rfl, by decide +kernel⟩
  have hz : Origin.parse "z" = .ok (.ofRoot "z") := by decide +kernel
  obtain ⟨x, d, hgives, rfl, rfl⟩ := hc
  simp only [talliedEntries, List.mem_cons, List.not_mem_nil, or_false] at he
  rcases he with rfl | rfl | rfl | rfl
  · obtain ⟨rfl, rfl⟩ := hx.unique hgives
    decide
  · obtain ⟨rfl, rfl⟩ := hy.unique hgives
    decide
  · obtain ⟨rfl, rfl⟩ := hx'.unique hgives
    decide
  · -- The path has no such variable.
    obtain ⟨o, ho, hlookup, -⟩ := hgives
    obtain rfl := Except.ok.inj (hz.symm.trans ho)
    cases hlookup

/-- Two numbers, one of them given twice, are given in any order. -/
theorem givenModel_perm_iff_tallied :
    (∀ e ∈ talliedEntries, acceptable tallied e = true) ∧
      ∀ es j, es.Perm talliedEntries →
        (givenModel tallied es .empty j).1 = (givenModel tallied talliedEntries .empty []).1 := by
  have haccepted : ∀ e ∈ talliedEntries, acceptable tallied e = true := by decide +kernel
  obtain ⟨-, hiff, -⟩ := givenModel_perm_iff haccepted
  refine ⟨haccepted, fun es j hes => hiff.2 ?_ es talliedEntries j [] hes (.refl _)⟩
  intro e he e' he' n c c' hc hc'
  have hagree : ∀ p ∈ [(0, Const.int 1), (1, Const.int 2)],
      ∀ q ∈ [(0, Const.int 1), (1, Const.int 2)], p.1 = q.1 → p.2 = q.2 := by decide
  exact hagree _ (givesAt_tallied he hc) _ (givesAt_tallied he' hc') rfl

theorem enter_tally :
    PathState.enter ⟨"Tally", "(II)V", "add"⟩ true ["x", "y"] = .ok tallyEntry := by
  have hparameters : Descriptor.parameters "(II)V" = .ok [.typed "I", .typed "I"] := by cbv
  have hresult : Descriptor.result "(II)V" = .ok "V" := by cbv
  rw [PathState.enter, hparameters, hresult]
  rfl

/-- Different texts mean one symbol, and of their values the later one wins. -/
theorem later_entry_wins :
    PathState.enter ⟨"Tally", "(II)V", "add"⟩ true ["x", "y"] = .ok tallyEntry ∧
      tallyEntry.returnValue none = .ok tallied ∧
      (["x", "\x7bROOT\x7d:x"].Nodup ∧
        acceptable tallied ("x", "1") = true ∧ acceptable tallied ("\x7bROOT\x7d:x", "2") = true) ∧
      (givenModel tallied [("x", "1"), ("\x7bROOT\x7d:x", "2")] .empty []).1.toOption.bind
        (·.get? 0) = some (.int 2) ∧
      (givenModel tallied [("\x7bROOT\x7d:x", "2"), ("x", "1")] .empty []).1.toOption.bind
        (·.get? 0) = some (.int 1) :=
  ⟨enter_tally, rfl, by decide +kernel, by decide +kernel, by decide +kernel⟩

end PathWitness
