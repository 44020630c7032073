import Mathlib.Data.Finset.Card
import Mathlib.Logic.Relation
import Mathlib.Order.Defs.Unbundled
import PathWitness.Proofs.ClassTable

/-!
# Subclassing is an Order

Two functions walk from a class to its superclasses until there is none left: the
one that collects fields and the one that compares types. Nothing in the walk
itself makes it stop. It stops because a table is accepted only if no class comes
back to itself, which is checked once, by walking from every declared class with a
limit that a walk without repetition cannot exceed.

A walk that is longer than the table has classes passes through some class twice,
so the limit finds every cycle; and a class on a cycle has no walk that ends, so
it finds nothing else. A class that is not declared has no superclass, which is
why the walks from names that are not in the table end as well.

Comparing two types asks for the walk only after two shortcuts, one for the root
class and one for arrays. With the shortcuts it is an order as long as the root
class is not given a superclass.

## Main definitions

* `Linked`: A declaration links a class to its superclass.
* `Declarable`: Declarations that differ by name and have valid fields.
* `Ancestry`: The walk from a class to its last superclass.
* `Walked`: What the two functions make of the walk.

## Theorems

* `chainWithin_eq_some_iff`: A chain within a limit is a walk of that length.
* `exists_cycle_of_chain?`: A walk that exceeds its limit has met a cycle.
* `Ancestry.mem_iff`: A walk passes through what the links lead to.
* `isSubclass_iff`: Comparing types is following links, but for the shortcuts.
* `ofList_error_iff`: Declarations are refused because of a cycle.
* `subclassing_ordered`: All of this together.
-/

namespace PathWitness

open Relation (TransGen ReflTransGen)

/-- A class and the superclass that its declaration names. -/
def Linked (classes : List ClassDecl) (sub super : String) : Prop :=
  super ≠ "" ∧ ∃ c ∈ classes, c.name = sub ∧ c.super = super

/-- Declarations with distinct names and with fields that values can have. -/
structure Declarable (decls : List ClassDecl) : Prop where
  named : ∀ c ∈ decls, c.name ≠ ""
  distinct : (decls.map ClassDecl.name).Nodup
  valid : ∀ c ∈ decls, ∀ f ∈ c.fields, f.isValid = true

namespace ClassTable

variable {t : ClassTable} {name sub super : String} {names : List String}

/-- The walk from a class through its superclasses, until there is none. -/
inductive Ancestry (t : ClassTable) : String → List String → Prop where
  | done : Ancestry t "" []
  | step {name : String} {names : List String} (hname : name ≠ "")
    (h : Ancestry t (t.super name) names) : Ancestry t name (name :: names)

/-- What is made of the walk from a class: it ends, the fields are those of the
    classes on it, and the class can be used as each of them. -/
structure Walked (t : ClassTable) (name : String) (names : List String) : Prop where
  ends : t.Ancestry name names
  fields : t.fields name = names.reverse.flatMap fun n =>
    ((t.find? n).map ClassDecl.fields).getD []
  subclass : ∀ super, t.isSubclass name super = true ↔ name = super ∨ super = rootClass ∨
    Descriptor.isArray name = false ∧ Descriptor.isArray super = false ∧ super ∈ names

theorem find?_name {c : ClassDecl} (h : t.find? name = some c) : c ∈ t.classes ∧ c.name = name := by
  unfold find? at h
  exact ⟨List.mem_of_find?_eq_some h, by simpa using List.find?_some h⟩

theorem find?_of_mem (hnames : (t.classes.map ClassDecl.name).Nodup) {c : ClassDecl}
    (hc : c ∈ t.classes) : t.find? c.name = some c := by
  cases hfind : t.find? c.name with
  | none => exact absurd (List.mem_map_of_mem hc) (not_mem_of_find? hfind)
  | some d =>
      obtain ⟨hd, hname⟩ := find?_name hfind
      rw [List.inj_on_of_nodup_map hnames hd hc hname]

/-- A class that is not declared has no superclass. -/
theorem super_of_not_mem (h : name ∉ t.classes.map ClassDecl.name) : t.super name = "" := by
  unfold ClassTable.super
  cases hfind : t.find? name with
  | none => rfl
  | some c =>
      obtain ⟨hc, hname⟩ := find?_name hfind
      exact absurd (List.mem_map.2 ⟨c, hc, hname⟩) h

/-- The declared links are those that a walk follows. -/
theorem linked_iff (hnames : (t.classes.map ClassDecl.name).Nodup) :
    Linked t.classes sub super ↔ t.super sub = super ∧ super ≠ "" := by
  constructor
  · rintro ⟨hne, c, hc, rfl, rfl⟩
    rw [ClassTable.super, find?_of_mem hnames hc]
    exact ⟨rfl, hne⟩
  · rintro ⟨rfl, hne⟩
    unfold ClassTable.super at hne ⊢
    cases hfind : t.find? sub with
    | none =>
        rw [hfind] at hne
        exact absurd rfl hne
    | some c =>
        rw [hfind] at hne
        obtain ⟨hc, hname⟩ := find?_name hfind
        exact ⟨hne, c, hc, hname, rfl⟩

section Walks

theorem Ancestry.unique {names' : List String} (h : t.Ancestry name names)
    (h' : t.Ancestry name names') : names = names' := by
  induction h generalizing names' with
  | done =>
      cases h' with
      | done => rfl
      | step hname _ => exact absurd rfl hname
  | step hname _ ih =>
      cases h' with
      | done => exact absurd rfl hname
      | step _ h' => rw [ih h']

/-- Without a class there is nothing to walk through. -/
theorem chainWithin_empty (n : Nat) : t.chainWithin n "" = some names ↔
    t.Ancestry "" names ∧ names.length ≤ n := by
  have hchain : t.chainWithin n "" = some [] := by
    cases n <;> rw [chainWithin, if_pos rfl]
  rw [hchain]
  constructor
  · intro h
    rw [← Option.some.inj h]
    exact ⟨.done, Nat.zero_le n⟩
  · rintro ⟨h, -⟩
    rw [h.unique .done]

/-- A chain is a walk that stays within its limit. -/
theorem chainWithin_eq_some_iff {n : Nat} :
    t.chainWithin n name = some names ↔ t.Ancestry name names ∧ names.length ≤ n := by
  induction n generalizing name names with
  | zero =>
      by_cases hname : name = ""
      · rw [hname]
        exact chainWithin_empty 0
      · rw [chainWithin, if_neg hname]
        constructor
        · intro h
          cases h
        · rintro ⟨h, hlength⟩
          cases h with
          | done => exact absurd rfl hname
          | step _ _ => simp at hlength
  | succ n ih =>
      by_cases hname : name = ""
      · rw [hname]
        exact chainWithin_empty (n + 1)
      · rw [chainWithin, if_neg hname, Option.map_eq_some_iff]
        constructor
        · rintro ⟨rest, hrest, rfl⟩
          obtain ⟨h, hlength⟩ := ih.1 hrest
          exact ⟨.step hname h, Nat.succ_le_succ hlength⟩
        · rintro ⟨h, hlength⟩
          cases h with
          | done => exact absurd rfl hname
          | step _ h => exact ⟨_, ih.2 ⟨h, Nat.le_of_succ_le_succ hlength⟩, rfl⟩

/-- A walk that exceeds its limit has gone through as many classes. -/
theorem iterate_super_ne {n : Nat} (h : t.chainWithin n name = none) :
    ∀ i ≤ n, t.super^[i] name ≠ "" := by
  induction n generalizing name with
  | zero =>
      intro i hi
      rw [Nat.le_zero.1 hi]
      intro hname
      rw [Function.iterate_zero_apply] at hname
      rw [chainWithin, if_pos hname] at h
      cases h
  | succ n ih =>
      unfold chainWithin at h
      by_cases hname : name = ""
      · rw [if_pos hname] at h
        cases h
      · rw [if_neg hname, Option.map_eq_none_iff] at h
        intro i hi
        cases i with
        | zero => exact hname
        | succ i =>
            rw [Function.iterate_succ_apply]
            exact ih h i (Nat.le_of_succ_le_succ hi)

variable (hnames : (t.classes.map ClassDecl.name).Nodup)
  (hnamed : "" ∉ t.classes.map ClassDecl.name)

include hnames

/-- Later classes of a walk are reached from earlier ones. -/
theorem transGen_iterate {i j : Nat} (hij : i < j) (hne : ∀ k ≤ j, t.super^[k] name ≠ "") :
    TransGen (Linked t.classes) (t.super^[i] name) (t.super^[j] name) := by
  induction j with
  | zero => omega
  | succ j ih =>
      have hlink : Linked t.classes (t.super^[j] name) (t.super^[j + 1] name) := by
        refine (linked_iff hnames).2 ⟨?_, hne (j + 1) (Nat.le_refl _)⟩
        rw [Function.iterate_succ_apply']
      by_cases hlast : i = j
      · rw [hlast]
        exact .single hlink
      · exact .tail (ih (by omega) fun k hk => hne k (by omega)) hlink

/-- A walk that exceeds its limit has met a cycle. -/
theorem exists_cycle_of_chain? (h : t.chain? name = none) :
    ∃ n, TransGen (Linked t.classes) n n := by
  have hne := iterate_super_ne h
  -- All classes of the walk but the last have a superclass, so they are declared.
  have hdeclared : ∀ i ∈ Finset.range (t.classes.length + 1),
      t.super^[i] name ∈ (t.classes.map ClassDecl.name).toFinset := by
    intro i hi
    rw [List.mem_toFinset]
    by_contra hmem
    have hi' : i + 1 ≤ t.classes.length + 1 := Finset.mem_range.1 hi
    apply hne (i + 1) hi'
    rw [Function.iterate_succ_apply', super_of_not_mem hmem]
  have hcard : (t.classes.map ClassDecl.name).toFinset.card
      < (Finset.range (t.classes.length + 1)).card := by
    have hle := List.toFinset_card_le (t.classes.map ClassDecl.name)
    rw [List.length_map] at hle
    rw [Finset.card_range]
    omega
  -- They are more than there are declared classes, so two of them are the same.
  obtain ⟨i, hi, j, hj, hij, heq⟩ :=
    Finset.exists_ne_map_eq_of_card_lt_of_maps_to hcard hdeclared
  have hi' := Finset.mem_range.1 hi
  have hj' := Finset.mem_range.1 hj
  by_cases hlt : i < j
  · have hcycle := transGen_iterate hnames hlt fun k hk => hne k (by omega)
    rw [← heq] at hcycle
    exact ⟨_, hcycle⟩
  · have hcycle := transGen_iterate hnames (show j < i by omega) fun k hk => hne k (by omega)
    rw [heq] at hcycle
    exact ⟨_, hcycle⟩

include hnamed

/-- A link leads to the next class of a walk. -/
theorem Ancestry.of_linked (h : t.Ancestry sub names) (hlink : Linked t.classes sub super) :
    ∃ rest, names = sub :: rest ∧ t.Ancestry super rest := by
  obtain ⟨rfl, hne⟩ := (linked_iff hnames).1 hlink
  cases h with
  | done => exact absurd (super_of_not_mem hnamed) hne
  | step _ h => exact ⟨_, rfl, h⟩

/-- The walk from a class is longer than those from its superclasses. -/
theorem Ancestry.of_transGen (h : t.Ancestry sub names)
    (hlinks : TransGen (Linked t.classes) sub super) :
    ∃ rest, t.Ancestry super rest ∧ rest.length < names.length := by
  induction hlinks with
  | single hlink =>
      obtain ⟨rest, rfl, hrest⟩ := h.of_linked hnames hnamed hlink
      exact ⟨rest, hrest, Nat.lt_succ_self _⟩
  | tail _ hlink ih =>
      obtain ⟨middle, hmiddle, hlength⟩ := ih
      obtain ⟨rest, rfl, hrest⟩ := hmiddle.of_linked hnames hnamed hlink
      rw [List.length_cons] at hlength
      exact ⟨rest, hrest, by omega⟩

/-- There is no cycle where a walk ends. -/
theorem Ancestry.acyclic (h : t.Ancestry name names) : ¬ TransGen (Linked t.classes) name name := by
  intro hcycle
  obtain ⟨rest, hrest, hlength⟩ := h.of_transGen hnames hnamed hcycle
  rw [h.unique hrest] at hlength
  exact Nat.lt_irrefl _ hlength

/-- The classes on a walk are those that links lead to. -/
theorem Ancestry.mem_iff (h : t.Ancestry name names) {n : String} :
    n ∈ names ↔ n ≠ "" ∧ ReflTransGen (Linked t.classes) name n := by
  induction h with
  | done =>
      -- No link starts at a name that no class has.
      constructor
      · intro hn
        cases hn
      · rintro ⟨hn, hlinks⟩
        rcases hlinks.cases_head with rfl | ⟨b, hlink, -⟩
        · exact absurd rfl hn
        · obtain ⟨rfl, hb⟩ := (linked_iff hnames).1 hlink
          exact absurd (super_of_not_mem hnamed) hb
  | @step name names hname h ih =>
      rw [List.mem_cons, ih]
      constructor
      · rintro (rfl | ⟨hn, hlinks⟩)
        · exact ⟨hname, .refl⟩
        · refine ⟨hn, ?_⟩
          by_cases hsuper : t.super name = ""
          · rw [hsuper] at h
            have hmem := ih.2 ⟨hn, hlinks⟩
            rw [h.unique .done] at hmem
            cases hmem
          · exact .head ((linked_iff hnames).2 ⟨rfl, hsuper⟩) hlinks
      · rintro ⟨hn, hlinks⟩
        rcases hlinks.cases_head with rfl | ⟨b, hlink, hrest⟩
        · exact .inl rfl
        · obtain ⟨rfl, -⟩ := (linked_iff hnames).1 hlink
          exact .inr ⟨hn, hrest⟩

end Walks

section Accepted

theorem foldlM_declare {decls : List ClassDecl} (h : Declarable decls)
    (hfree : ∀ c ∈ decls, c.name ∉ t.classes.map ClassDecl.name) :
    decls.foldlM declare t = .ok ⟨t.classes ++ decls.map ClassDecl.withSuper⟩ := by
  induction decls generalizing t with
  | nil => simp [pure, Except.pure]
  | cons c rest ih =>
      have hc := hfree c List.mem_cons_self
      have hnone : t.find? c.name = none := by
        cases hfind : t.find? c.name with
        | none => rfl
        | some d =>
            obtain ⟨hd, hname⟩ := find?_name hfind
            exact absurd (List.mem_map.2 ⟨d, hd, hname⟩) hc
      have hvalid : c.fields.find? (!·.isValid) = none := by
        rw [List.find?_eq_none]
        intro f hf
        simp [h.valid c List.mem_cons_self f hf]
      have hdeclare : t.declare c = .ok ⟨t.classes ++ [c.withSuper]⟩ := by
        simp [declare, h.named c List.mem_cons_self, hnone, hvalid]
      obtain ⟨hfirst, hdistinct⟩ := List.nodup_cons.1 h.distinct
      have hrest : Declarable rest :=
        ⟨fun d hd => h.named d (List.mem_cons_of_mem c hd), hdistinct,
          fun d hd => h.valid d (List.mem_cons_of_mem c hd)⟩
      rw [List.foldlM_cons, hdeclare]
      change rest.foldlM declare ⟨t.classes ++ [c.withSuper]⟩ = _
      rw [ih hrest]
      · simp
      · intro d hd hmem
        rw [List.map_append, List.mem_append] at hmem
        rcases hmem with hmem | hmem
        · exact hfree d (List.mem_cons_of_mem c hd) hmem
        · rw [List.map_singleton, name_withSuper, List.mem_singleton] at hmem
          rw [← hmem] at hfirst
          exact hfirst (List.mem_map_of_mem hd)

/-- What is left to be checked when all classes are declared. -/
theorem ofList_error_iff_chain? {decls : List ClassDecl}
    (hfold : decls.foldlM declare {} = .ok t) :
    (∃ e, ofList decls = .error e) ↔ ∃ c ∈ t.classes, t.chain? c.name = none := by
  unfold ofList
  rw [hfold]
  simp only [bind, Except.bind]
  split
  · rename_i c hc
    refine ⟨fun _ => ⟨c, List.mem_of_find?_eq_some hc, ?_⟩, fun _ => ⟨_, rfl⟩⟩
    simpa using List.find?_some hc
  · rename_i hnone
    constructor
    · rintro ⟨e, he⟩
      cases he
    · rintro ⟨c, hc, hchain⟩
      have hsome := List.find?_eq_none.1 hnone c hc
      rw [hchain] at hsome
      exact absurd rfl hsome

/-- Declarations that differ by name and have valid fields are refused because of a
    cycle, and for no other reason. -/
theorem ofList_error_iff {decls : List ClassDecl} (h : Declarable decls) :
    (∃ e, ofList decls = .error e) ↔
      ∃ name, TransGen (Linked (decls.map ClassDecl.withSuper)) name name := by
  have hfold := foldlM_declare (t := {}) h fun c _ hc => by cases hc
  rw [List.nil_append] at hfold
  have hmap : (decls.map ClassDecl.withSuper).map ClassDecl.name = decls.map ClassDecl.name := by
    simp [Function.comp_def, name_withSuper]
  have hnames : ((decls.map ClassDecl.withSuper).map ClassDecl.name).Nodup := by
    rw [hmap]
    exact h.distinct
  have hnamed : "" ∉ (decls.map ClassDecl.withSuper).map ClassDecl.name := by
    rw [hmap]
    intro hmem
    obtain ⟨c, hc, hname⟩ := List.mem_map.1 hmem
    exact h.named c hc hname
  rw [ofList_error_iff_chain? hfold]
  constructor
  · rintro ⟨c, -, hchain⟩
    exact exists_cycle_of_chain? hnames hchain
  · rintro ⟨name, hcycle⟩
    -- A cycle goes through a declared class, from which no walk can end.
    obtain ⟨-, ⟨-, c, hc, rfl, -⟩, -⟩ := TransGen.head'_iff.1 hcycle
    refine ⟨c, hc, ?_⟩
    cases hchain : chain? ⟨decls.map ClassDecl.withSuper⟩ c.name with
    | none => rfl
    | some names =>
        have hwalk := (chainWithin_eq_some_iff.1 hchain).1
        exact absurd hcycle (hwalk.acyclic hnames hnamed)

variable {decls : List ClassDecl} (h : ofList decls = .ok t)

include h

/-- In an accepted table no walk exceeds its limit. -/
theorem exists_chain? (name : String) : ∃ names, t.chain? name = some names := by
  by_cases hmem : name ∈ t.classes.map ClassDecl.name
  · obtain ⟨c, hc, rfl⟩ := List.mem_map.1 hmem
    cases hchain : t.chain? c.name with
    | some names => exact ⟨names, rfl⟩
    | none =>
        obtain ⟨e, he⟩ := (ofList_error_iff_chain? (foldlM_of_ofList h)).2 ⟨c, hc, hchain⟩
        rw [h] at he
        cases he
  · -- The walk from a class that is not declared has no second step.
    by_cases hname : name = ""
    · exact ⟨[], chainWithin_eq_some_iff.2 ⟨hname ▸ .done, Nat.zero_le _⟩⟩
    · refine ⟨[name], chainWithin_eq_some_iff.2 ⟨.step hname ?_, ?_⟩⟩
      · rw [super_of_not_mem hmem]
        exact .done
      · simp

/-- What the two functions that walk make of the walk. -/
theorem walked (name : String) : ∃ names, t.Walked name names := by
  obtain ⟨names, hchain⟩ := exists_chain? h name
  have hwalk := (chainWithin_eq_some_iff.1 hchain).1
  refine ⟨names, hwalk, ?_, fun super => ?_⟩
  · unfold fields chain
    rw [hchain]
    refine congrArg (List.flatMap · names.reverse) (funext fun n => ?_)
    cases t.find? n <;> rfl
  · -- The comparison starts its walk one step later.
    obtain ⟨rest, hrest⟩ := exists_chain? h (t.super name)
    have hmem : name ≠ super → (super ∈ names ↔ super ∈ rest) := by
      intro hne
      have hwalk' := (chainWithin_eq_some_iff.1 hrest).1
      cases hwalk with
      | done =>
          rw [super_of_not_mem (names_of_ofList h).2] at hwalk'
          rw [hwalk'.unique .done]
      | step _ hwalk =>
          rw [hwalk.unique hwalk', List.mem_cons]
          exact or_iff_right fun heq => hne heq.symm
    unfold isSubclass chain
    rw [hrest]
    by_cases heq : name = super
    · simp [heq]
    · by_cases hroot : super = rootClass
      · simp [hroot]
      · simp only [heq, hroot, decide_false, Bool.or_self, Bool.false_eq_true, if_false, false_or,
          hmem heq, Option.getD_some]
        cases Descriptor.isArray name <;> cases Descriptor.isArray super <;> simp

/-- One class can be used as another if links lead there. The root class and arrays
    are looked at before that. -/
theorem isSubclass_iff : t.isSubclass sub super = true ↔ sub = super ∨ super = rootClass ∨
    Descriptor.isArray sub = false ∧ Descriptor.isArray super = false ∧
      TransGen (Linked t.classes) sub super := by
  obtain ⟨hnames, hnamed⟩ := names_of_ofList h
  obtain ⟨names, hends, -, hsubclass⟩ := walked h sub
  rw [hsubclass, hends.mem_iff hnames hnamed, Relation.reflTransGen_iff_eq_or_transGen]
  constructor
  · rintro (heq | hroot | ⟨hsub, hsuper, -, heq | hlinks⟩)
    · exact .inl heq
    · exact .inr (.inl hroot)
    · exact .inl heq.symm
    · exact .inr (.inr ⟨hsub, hsuper, hlinks⟩)
  · rintro (heq | hroot | ⟨hsub, hsuper, hlinks⟩)
    · exact .inl heq
    · exact .inr (.inl hroot)
    · obtain ⟨_, -, hlink⟩ := TransGen.tail'_iff.1 hlinks
      exact .inr (.inr ⟨hsub, hsuper, hlink.1, .inr hlinks⟩)

/-- Without a superclass the root class can be used as nothing else. -/
theorem eq_root_of_isSubclass (hroot : t.super rootClass = "")
    (hsub : t.isSubclass rootClass super = true) : super = rootClass := by
  rcases (isSubclass_iff h).1 hsub with heq | heq | ⟨-, -, hlinks⟩
  · exact heq.symm
  · exact heq
  · obtain ⟨_, hlink, -⟩ := TransGen.head'_iff.1 hlinks
    obtain ⟨rfl, hne⟩ := (linked_iff (names_of_ofList h).1).1 hlink
    exact absurd hroot hne

theorem isSubclass_trans (hroot : t.super rootClass = "") {a b c : String}
    (hab : t.isSubclass a b = true) (hbc : t.isSubclass b c = true) : t.isSubclass a c = true := by
  rcases (isSubclass_iff h).1 hab with rfl | rfl | ⟨ha, hb, hlinks⟩
  · exact hbc
  · rw [eq_root_of_isSubclass h hroot hbc]
    exact hab
  · rcases (isSubclass_iff h).1 hbc with rfl | rfl | ⟨-, hc, hlinks'⟩
    · exact hab
    · exact (isSubclass_iff h).2 (.inr (.inl rfl))
    · exact (isSubclass_iff h).2 (.inr (.inr ⟨ha, hc, hlinks.trans hlinks'⟩))

theorem isSubclass_antisymm (hroot : t.super rootClass = "") {a b : String}
    (hab : t.isSubclass a b = true) (hba : t.isSubclass b a = true) : a = b := by
  rcases (isSubclass_iff h).1 hab with heq | rfl | ⟨-, -, hlinks⟩
  · exact heq
  · exact eq_root_of_isSubclass h hroot hba
  · rcases (isSubclass_iff h).1 hba with heq | rfl | ⟨-, -, hlinks'⟩
    · exact heq.symm
    · exact (eq_root_of_isSubclass h hroot hab).symm
    · -- Two classes that can be used as each other would be a cycle.
      obtain ⟨hnames, hnamed⟩ := names_of_ofList h
      obtain ⟨names, hends, -, -⟩ := walked h a
      exact absurd (hlinks.trans hlinks') (hends.acyclic hnames hnamed)

end Accepted

/-- Declarations that differ by name and have valid fields are refused exactly if their
    superclasses go round in a circle. In a table that is accepted every walk ends, and
    if the root class has no superclass there, being usable as another type is a partial
    order on all names. -/
theorem subclassing_ordered (decls : List ClassDecl) :
    (Declarable decls → ((∃ e, ofList decls = .error e) ↔
      ∃ name, TransGen (Linked (decls.map ClassDecl.withSuper)) name name)) ∧
    ∀ t, ofList decls = .ok t → (∀ name, ∃ names, t.Walked name names) ∧
      (t.super rootClass = "" → IsPartialOrder String fun a b => t.isSubclass a b = true) := by
  refine ⟨ofList_error_iff, fun t h => ⟨walked h, fun hroot => ?_⟩⟩
  exact
    { refl := fun a => (isSubclass_iff h).2 (.inl rfl)
      trans := fun a b c => isSubclass_trans h hroot
      antisymm := fun a b => isSubclass_antisymm h hroot }

/-- Vehicles, one of them with a superclass that is not declared. -/
def vehicleDecls : List ClassDecl :=
  [⟨"Vehicle", "", true, [⟨"wheels", "I"⟩]⟩, ⟨"Truck", "Vehicle", false, [⟨"load", "J"⟩]⟩,
    ⟨"Crane", "Machine", false, [⟨"height", "I"⟩]⟩]

/-- The table of the vehicles. -/
def vehicles : ClassTable :=
  ⟨[⟨"Vehicle", rootClass, true, [⟨"wheels", "I"⟩]⟩, ⟨"Truck", "Vehicle", false, [⟨"load", "J"⟩]⟩,
    ⟨"Crane", "Machine", false, [⟨"height", "I"⟩]⟩]⟩

/-- The root class extends a class that extends it, because that names no superclass. -/
def roundDecls : List ClassDecl :=
  [⟨rootClass, "Vehicle", false, []⟩, ⟨"Vehicle", "", false, []⟩]

theorem ofList_vehicles : ofList vehicleDecls = .ok vehicles := by
  rfl

theorem subclassing_ordered_vehicles :
    (Declarable roundDecls ∧ ∃ e, ofList roundDecls = .error e) ∧
    ofList vehicleDecls = .ok vehicles ∧ vehicles.super rootClass = "" ∧
    (∃ names, vehicles.Walked "Crane" names) ∧ (∃ names, vehicles.Walked "Machine" names) ∧
    IsPartialOrder String fun a b => vehicles.isSubclass a b = true := by
  have hround : Declarable roundDecls := by
    refine ⟨?_, ?_, ?_⟩
    all_goals decide
  have hcycle : TransGen (Linked (roundDecls.map ClassDecl.withSuper)) rootClass rootClass := by
    have hup : Linked (roundDecls.map ClassDecl.withSuper) rootClass "Vehicle" :=
      ⟨by decide, _, List.mem_cons_self, rfl, rfl⟩
    have hdown : Linked (roundDecls.map ClassDecl.withSuper) "Vehicle" rootClass :=
      ⟨by decide, _, List.mem_cons_of_mem _ List.mem_cons_self, rfl, rfl⟩
    exact .tail (.single hup) hdown
  obtain ⟨hwalks, horder⟩ := (subclassing_ordered vehicleDecls).2 vehicles ofList_vehicles
  exact ⟨⟨hround, ((subclassing_ordered roundDecls).1 hround).2 ⟨rootClass, hcycle⟩⟩,
    ofList_vehicles, rfl, hwalks "Crane", hwalks "Machine", horder rfl⟩

end ClassTable

end PathWitness
