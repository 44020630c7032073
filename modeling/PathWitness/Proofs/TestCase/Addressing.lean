import PathWitness.Proofs.TestCase.JavaHeap

/-!
# How Statements Address an Origin

What is at an origin is addressed in three ways. A root is a variable. A chain of
nothing but indices is written with brackets, and any other chain is walked by
reflection. All three come to the same: start at the variable of the root, and
take one step after the other. So storing and reading are described here once,
in terms of origins, and what follows need not know how a statement is written.

## Main definitions

* `Accessor.chainStep?`: A step of an origin as a step of a chain.
* `Origin.Walkable`: All steps of an origin can be steps of a chain.
* `chainOf`, `indicesOf`: The steps of an origin as a chain, or as indices.
* `writing`, `reading`: The statement that stores at an origin, and the expression for
  what is there.

## Theorems

* `readAt_push`: An origin is read through the one before it.
* `assign_eq`, `readOrigin_eq`: What is written for an origin.
* `assign_run`: Storing at an origin.
* `readOrigin_run`: Reading at an origin.
* `store_push`: Storing at the last step of an origin.
-/

namespace PathWitness

open TestCase (ChainStep)

/-- A step of an origin as a step of a chain. An index must be a number, and the
    length of an array is no step. -/
def Accessor.chainStep? : Accessor → Option ChainStep
  | field name => some (.field name)
  | index i => (Number.parseDecimal32 i.toList).map .index
  | length => none

/-- The number of an index, if it is one. -/
def Accessor.index? : Accessor → Option Int
  | index i => Number.parseDecimal32 i.toList
  | _ => none

/-- All steps can be steps of a chain. -/
def Origin.Walkable (o : Origin) : Prop :=
  ∀ a ∈ o.steps, a.chainStep?.isSome

namespace TestCase

open Setup

/-- The steps of an origin as a chain. -/
def chainOf (o : Origin) : List ChainStep :=
  o.steps.filterMap Accessor.chainStep?

/-- The indices of an origin. -/
def indicesOf (o : Origin) : List Int :=
  o.steps.filterMap Accessor.index?

/-- The statement that stores at a nested origin. -/
def writing (o : Origin) (v : Source) : Statement :=
  if isIndexChain o then .storeElement (rootVariable o.root) (indicesOf o) v
  else .storeChain (rootVariable o.root) (chainOf o) v

/-- The expression for what is at an origin, as a value of a type. -/
def reading (o : Origin) (type : String) : Source :=
  if o.isRoot then .var (rootVariable o.root)
  else if isIndexChain o then .element (rootVariable o.root) (indicesOf o)
  else .chain type (rootVariable o.root) (chainOf o)

variable {j : JavaState} {o : Origin} {a : Accessor} {step : ChainStep} {ctx : Context} {st : Setup}

section Reading

theorem readAt_root {name : String} {w : JavaValue}
    (h : j.get? (.binding (rootVariable name)) = some w) : j.readAt (.ofRoot name) = .ok w := by
  unfold JavaState.readAt JavaState.variableValue
  rw [show (Origin.ofRoot name).root = name from rfl, h]
  rfl

/-- An origin is read through the one before it. -/
theorem readAt_push {v : JavaValue} (h : j.readAt o = .ok v) :
    j.readAt (o.push a) = j.access v a := by
  unfold JavaState.readAt at h ⊢
  rcases bind_eq_ok h with ⟨root, hroot, hsteps⟩
  rw [Origin.push, hroot]
  change List.foldlM j.access root (o.steps ++ [a]) = _
  rw [List.foldlM_append, hsteps]
  exact bind_pure (j.access v a)

theorem access_eq_follow (h : a.chainStep? = some step) (v : JavaValue) :
    j.access v a = j.follow v step := by
  cases a with
  | field name => rw [← Option.some.inj h, JavaState.access]
  | index i =>
      obtain ⟨k, hk, rfl⟩ := Option.map_eq_some_iff.1 h
      simp only [JavaState.access, hk]
  | length => cases h

/-- Walking the chain of an origin is reading step by step. -/
theorem chase_eq_access {steps : List Accessor} (h : ∀ a ∈ steps, a.chainStep?.isSome)
    (v : JavaValue) :
    j.chase v (steps.filterMap Accessor.chainStep?) = steps.foldlM j.access v := by
  induction steps generalizing v with
  | nil => rfl
  | cons a rest ih =>
      obtain ⟨step, hstep⟩ := Option.isSome_iff_exists.1 (h a List.mem_cons_self)
      rw [List.filterMap_cons_some hstep, JavaState.chase, List.foldlM_cons, List.foldlM_cons,
        access_eq_follow hstep]
      exact congrArg _ (funext fun w => ih (fun b hb => h b (List.mem_cons_of_mem a hb)) w)

theorem chase_chainOf (h : o.Walkable) :
    (j.variableValue (rootVariable o.root) >>= fun v => j.chase v (chainOf o)) = j.readAt o :=
  congrArg _ (funext fun v => chase_eq_access h v)

/-- Storing at the last step of an origin stores where the step leads to from what
    is read in front of it. -/
theorem store_push {v w : JavaValue} {π : Place} (hwalk : o.Walkable)
    (hread : j.readAt o = .ok v) (hstep : a.chainStep? = some step)
    (hlocate : j.locate v step = .ok π) :
    j.store (rootVariable o.root) (chainOf (o.push a)) w = .ok (j.put π w) := by
  have hchain : chainOf (o.push a) = chainOf o ++ [step] := by
    rw [chainOf, Origin.push, List.filterMap_append, List.filterMap_cons_some hstep,
      List.filterMap_nil, chainOf]
  rw [← chase_chainOf hwalk] at hread
  rcases bind_eq_ok hread with ⟨root, hroot, hchase⟩
  unfold JavaState.store
  rw [hchain, List.dropLast_concat, List.getLast?_concat, hroot]
  change (j.chase root (chainOf o) >>= _) = _
  rw [hchase]
  change (j.locate v step >>= _) = _
  rw [hlocate]
  rfl

end Reading

section Writing

/-- The index of a numeral is the number. -/
theorem index_of_parse {i : String} {k : Int} (h : Number.parseDecimal32 i.toList = some k) :
    ctx.index i = .ok k := by
  unfold Context.index
  rw [h]

theorem chain_run {steps : List Accessor} (h : ∀ a ∈ steps, a.chainStep?.isSome) :
    ctx.chain steps = .ok (steps.filterMap Accessor.chainStep?) := by
  induction steps with
  | nil => rfl
  | cons a rest ih =>
      have hrest := ih fun b hb => h b (List.mem_cons_of_mem a hb)
      obtain ⟨step, hstep⟩ := Option.isSome_iff_exists.1 (h a List.mem_cons_self)
      unfold Context.chain at hrest ⊢
      rw [List.mapM_cons, hrest, List.filterMap_cons_some hstep]
      cases a with
      | field name =>
          rw [← Option.some.inj hstep]
          rfl
      | index i =>
          obtain ⟨k, hk, rfl⟩ := Option.map_eq_some_iff.1 hstep
          simp only [index_of_parse hk]
          rfl
      | length => cases hstep

/-- The indices of a chain that has no other steps are the steps of the chain. -/
theorem indices_run (ctx : Context) {steps : List Accessor} (h : ∀ a ∈ steps, a.chainStep?.isSome)
    (hindices : ∀ a ∈ steps, ∃ i, a = .index i) :
    ctx.indices steps = .ok (steps.filterMap Accessor.index?) ∧
      (steps.filterMap Accessor.index?).map ChainStep.index
        = steps.filterMap Accessor.chainStep? := by
  induction steps with
  | nil => exact ⟨rfl, rfl⟩
  | cons a rest ih =>
      obtain ⟨hks, hmap⟩ := ih (fun b hb => h b (List.mem_cons_of_mem a hb))
        fun b hb => hindices b (List.mem_cons_of_mem a hb)
      obtain ⟨i, rfl⟩ := hindices a List.mem_cons_self
      obtain ⟨step, hstep⟩ := Option.isSome_iff_exists.1 (h _ List.mem_cons_self)
      obtain ⟨k, hk, rfl⟩ := Option.map_eq_some_iff.1 hstep
      have hindex : (Accessor.index i).index? = some k := hk
      rw [List.filterMap_cons_some hstep, List.filterMap_cons_some hindex, List.map_cons, hmap]
      refine ⟨?_, rfl⟩
      unfold Context.indices at hks ⊢
      rw [List.mapM_cons, hks, Accessor.name, index_of_parse hk]
      rfl

theorem indices_of_isIndexChain (h : isIndexChain o = true) : ∀ a ∈ o.steps, ∃ i, a = .index i := by
  intro a ha
  have hall := List.all_eq_true.1 (Bool.and_eq_true_iff.1 h).2 a ha
  cases a with
  | index i => exact ⟨i, rfl⟩
  | field name => cases hall
  | length => cases hall

theorem length_indicesOf (hchain : isIndexChain o = true) (hwalk : o.Walkable) :
    (indicesOf o).length = o.steps.length := by
  have hsome : ∀ a ∈ o.steps, (Accessor.index? a).isSome := by
    intro a ha
    obtain ⟨i, rfl⟩ := indices_of_isIndexChain hchain a ha
    have hstep := hwalk _ ha
    rwa [Accessor.chainStep?, Option.isSome_map] at hstep
  rw [indicesOf, List.filterMap_length_eq_length]
  exact hsome

theorem run_get_bind {α : Type} (f : Setup → SetupM α) : (get >>= f).run st = (f st).run st :=
  rfl

/-- One statement stores a value at an origin. -/
theorem assign_eq (ctx : Context) (st : Setup) (hroot : o.root ∈ st.roots) (hwalk : o.Walkable)
    (v : Source) : (assign ctx o v).run st
      = .ok ((), { st with statements := st.statements ++ [writing o v] }) := by
  have hcontains : st.roots.contains o.root = true := List.contains_iff_mem.2 hroot
  unfold assign writing
  rw [run_get_bind]
  by_cases hchain : isIndexChain o = true
  · obtain ⟨hks, -⟩ := indices_run ctx hwalk (indices_of_isIndexChain hchain)
    simp only [hcontains, Bool.not_true, Bool.false_eq_true, if_false, hchain, if_true, hks]
    rfl
  · simp only [hcontains, Bool.not_true, Bool.false_eq_true, if_false, hchain, chain_run hwalk]
    rfl

/-- There is an expression for what is at an origin. -/
theorem readOrigin_eq (ctx : Context) (hroot : o.root ∈ st.roots) (hwalk : o.Walkable)
    (type : String) : (readOrigin ctx o type).run st = .ok (reading o type, st) := by
  have hcontains : st.roots.contains o.root = true := List.contains_iff_mem.2 hroot
  unfold readOrigin reading
  rw [run_get_bind]
  simp only [hcontains, Bool.not_true, Bool.false_eq_true, if_false]
  by_cases hisRoot : o.isRoot = true
  · rw [if_pos hisRoot, if_pos hisRoot]
    rfl
  · rw [if_neg hisRoot, if_neg hisRoot]
    by_cases hchain : isIndexChain o = true
    · obtain ⟨hks, -⟩ := indices_run ctx hwalk (indices_of_isIndexChain hchain)
      rw [if_pos hchain, if_pos hchain, hks]
      rfl
    · rw [if_neg hchain, if_neg hchain, chain_run hwalk]
      rfl

/-- Nothing is stored or read behind a root that has no variable. -/
theorem assign_unrooted (ctx : Context) (hroot : o.root ∉ st.roots) (v : Source) :
    (assign ctx o v).run st = .error (.noRootVariable o) := by
  have hcontains : st.roots.contains o.root = false := by simpa using hroot
  unfold assign
  rw [run_get_bind]
  simp only [hcontains, Bool.not_false, if_true]
  rfl

theorem readOrigin_unrooted (ctx : Context) (hroot : o.root ∉ st.roots) (type : String) :
    (readOrigin ctx o type).run st = .error (.skip (.noVariable o)) := by
  have hcontains : st.roots.contains o.root = false := by simpa using hroot
  unfold readOrigin
  rw [run_get_bind]
  simp only [hcontains, Bool.not_false, if_true]
  rfl

/-- One statement stores a value at an origin, whichever way it is written. -/
theorem assign_run (ctx : Context) (classes : ClassTable) (st : Setup)
    (hroot : o.root ∈ st.roots) (hwalk : o.Walkable) (v : Source) :
    ∃ statement, (assign ctx o v).run st
        = .ok ((), { st with statements := st.statements ++ [statement] }) ∧
      ∀ j w j', v.eval classes j = .ok (w, j') →
        statement.exec classes j = j'.store (rootVariable o.root) (chainOf o) w := by
  refine ⟨writing o v, assign_eq ctx st hroot hwalk v, fun j w j' heval => ?_⟩
  unfold writing
  by_cases hchain : isIndexChain o = true
  · obtain ⟨-, hmap⟩ := indices_run ctx hwalk (indices_of_isIndexChain hchain)
    rw [if_pos hchain]
    simp only [Statement.exec, heval, indicesOf, hmap]
    rfl
  · rw [if_neg hchain]
    simp only [Statement.exec, heval]
    rfl

/-- The expression for an origin has the value that is read there. -/
theorem readOrigin_run (ctx : Context) (classes : ClassTable) (hroot : o.root ∈ st.roots)
    (hwalk : o.Walkable) (type : String) :
    ∃ v, (readOrigin ctx o type).run st = .ok (v, st) ∧
      ∀ j w, j.readAt o = .ok w → v.eval classes j = .ok (w, j) := by
  refine ⟨_, readOrigin_eq ctx hroot hwalk type, fun j w hread => ?_⟩
  unfold reading
  by_cases hisRoot : o.isRoot = true
  · rw [if_pos hisRoot]
    unfold JavaState.readAt at hread
    rcases bind_eq_ok hread with ⟨v, hv, hsteps⟩
    rw [List.isEmpty_iff.1 hisRoot] at hsteps
    rw [Source.eval, hv, Except.ok.inj hsteps]
    rfl
  · rw [if_neg hisRoot]
    rw [← chase_chainOf hwalk] at hread
    rcases bind_eq_ok hread with ⟨v, hv, hchase⟩
    by_cases hchain : isIndexChain o = true
    · obtain ⟨-, hmap⟩ := indices_run ctx hwalk (indices_of_isIndexChain hchain)
      rw [if_pos hchain, Source.eval, hv, indicesOf, hmap]
      change (j.chase v (chainOf o) >>= _) = _
      rw [hchase]
      rfl
    · rw [if_neg hchain, Source.eval, hv]
      change (j.chase v (chainOf o) >>= _) = _
      rw [hchase]
      rfl

end Writing

end TestCase

end PathWitness
