import Mathlib.Data.List.Nodup
import PathWitness.Proofs.Computation

/-!
# Declared Classes

A table refuses a class without a name and a class that was declared before, so
the names of its classes tell them apart. The classes that a reference can be
expanded to are therefore distinct too: they are declared classes, preceded by the
root class if that is not one of them.

## Theorems

* `declare_ok`: What is checked before a class is declared.
* `names_of_ofList`: Names of declared classes.
* `instantiable_cases`: Classes that a reference can be expanded to.
* `mem_fields`: The fields of a class are declared by classes of the table.
* `isValid_of_mem_fields`: The fields of accepted classes are valid.
-/

namespace PathWitness

namespace ClassTable

variable {t : ClassTable}

theorem name_withSuper (c : ClassDecl) : c.withSuper.name = c.name := by
  unfold ClassDecl.withSuper
  split <;> rfl

theorem fields_withSuper (c : ClassDecl) : c.withSuper.fields = c.fields := by
  unfold ClassDecl.withSuper
  split <;> rfl

/-- A class that is not found is not among the names. -/
theorem not_mem_of_find? {name : String} (h : t.find? name = none) :
    name ∉ t.classes.map ClassDecl.name := by
  intro hmem
  rcases List.mem_map.1 hmem with ⟨c, hc, hname⟩
  have hother := List.find?_eq_none.1 h c hc
  exact hother (beq_iff_eq.2 hname)

/-- What is checked of a class before it is declared. -/
theorem declare_ok {t' : ClassTable} {c : ClassDecl} (h : t.declare c = .ok t') :
    c.name ≠ "" ∧ t.find? c.name = none ∧ (∀ f ∈ c.fields, f.isValid = true) ∧
      t'.classes = t.classes ++ [c.withSuper] := by
  unfold declare at h
  split at h
  · exact absurd h (by simp only [reduceCtorEq, not_false_eq_true])
  · rename_i hname
    split at h
    · exact absurd h (by simp only [reduceCtorEq, not_false_eq_true])
    · rename_i hfree
      split at h
      · exact absurd h (by simp only [reduceCtorEq, not_false_eq_true])
      · rename_i hvalid
        refine ⟨hname, by simpa using hfree, fun f hf => ?_, by rw [← Except.ok.inj h]⟩
        simpa using List.find?_eq_none.1 hvalid f hf

/-- An accepted table is made of its declarations, one after the other. -/
theorem foldlM_of_ofList {decls : List ClassDecl} (h : ofList decls = .ok t) :
    decls.foldlM declare {} = .ok t := by
  rcases bind_eq_ok h with ⟨t', hfold, hcheck⟩
  split at hcheck
  · exact absurd hcheck (by simp only [reduceCtorEq, not_false_eq_true])
  · rw [hfold, ← Except.ok.inj hcheck]

/-- Declared classes have names, and no two of them the same. -/
theorem names_of_ofList {decls : List ClassDecl} (h : ofList decls = .ok t) :
    (t.classes.map ClassDecl.name).Nodup ∧ "" ∉ t.classes.map ClassDecl.name := by
  refine foldlM_induction (P := fun t =>
    (t.classes.map ClassDecl.name).Nodup ∧ "" ∉ t.classes.map ClassDecl.name)
    (fun t c t' ht hc => ?_) (foldlM_of_ofList h) ⟨List.nodup_nil, List.not_mem_nil⟩
  rcases declare_ok hc with ⟨hname, hnone, -, hclasses⟩
  rw [hclasses, List.map_append, List.map_singleton, name_withSuper]
  refine ⟨List.nodup_append.2 ⟨ht.1, List.nodup_singleton _, ?_⟩, ?_⟩
  · intro name hmem name' hmem' heq
    rw [List.mem_singleton.1 hmem'] at heq
    exact not_mem_of_find? hnone (heq ▸ hmem)
  · intro hmem
    rcases List.mem_append.1 hmem with hmem | hmem
    · exact ht.2 hmem
    · exact hname (List.mem_singleton.1 hmem).symm

/-- The classes that a reference can be expanded to are told apart by their
    names, or there is only one. -/
theorem instantiable_cases (hnames : (t.classes.map ClassDecl.name).Nodup)
    (hnamed : "" ∉ t.classes.map ClassDecl.name) (name : String) :
    (∃ n, t.instantiable name = [n]) ∨
      (t.instantiable name).Nodup ∧ "" ∉ t.instantiable name := by
  have hsub : ((t.classes.filter fun c => !c.isAbstract && t.isSubclass c.name name).map
      ClassDecl.name).Sublist (t.classes.map ClassDecl.name) := List.filter_sublist.map _
  unfold instantiable
  split
  · exact .inl ⟨name, rfl⟩
  · dsimp only
    split
    · exact .inl ⟨name, rfl⟩
    · rename_i hroot
      refine .inr ?_
      cases hfind : t.find? name with
      | some c => exact ⟨hnames.sublist hsub, fun hmem => hnamed (hsub.subset hmem)⟩
      | none =>
          -- Only the root class stands for others without being declared.
          have hname : name = rootClass := by
            simpa [hfind] using hroot
          subst hname
          refine ⟨List.nodup_cons.2 ⟨fun hmem => ?_, hnames.sublist hsub⟩, fun hmem => ?_⟩
          · exact not_mem_of_find? hfind (hsub.subset hmem)
          · rcases List.mem_cons.1 hmem with hmem | hmem
            · exact absurd hmem (by decide)
            · exact hnamed (hsub.subset hmem)

/-- A field of a class was declared. -/
theorem mem_fields {t : ClassTable} {name : String} {f : FieldDecl} (h : f ∈ t.fields name) :
    ∃ c ∈ t.classes, f ∈ c.fields := by
  obtain ⟨n, _, hf⟩ := List.mem_flatMap.1 h
  split at hf
  · rename_i c hc
    exact ⟨c, List.mem_of_find?_eq_some hc, hf⟩
  · exact absurd hf List.not_mem_nil

/-- Fields of accepted classes have names and types that values can have. -/
theorem isValid_of_mem_fields {decls : List ClassDecl} (h : ofList decls = .ok t) {name : String}
    {f : FieldDecl} (hf : f ∈ t.fields name) : f.isValid = true := by
  have hvalid : ∀ c ∈ t.classes, ∀ f ∈ c.fields, f.isValid = true := by
    refine foldlM_induction (P := fun t => ∀ c ∈ t.classes, ∀ f ∈ c.fields, f.isValid = true)
      (fun t c t' ht hc d hd => ?_) (foldlM_of_ofList h) fun c hc => absurd hc List.not_mem_nil
    rcases declare_ok hc with ⟨-, -, hfields, hclasses⟩
    rw [hclasses] at hd
    rcases List.mem_append.1 hd with hd | hd
    · exact ht d hd
    · rw [List.mem_singleton.1 hd, fields_withSuper]
      exact hfields
  rcases mem_fields hf with ⟨c, hc, hfc⟩
  exact hvalid c hc f hfc

end ClassTable

end PathWitness
