import Mathlib.Data.List.Nodup
import PathWitness.Proofs.ClassTable.Order
import PathWitness.Proofs.Resolution.Failure
import PathWitness.Proofs.Scenario.Exclusive

/-!
# What is Offered and What is Accepted

The ways in which a reference can be resolved are listed before one of them is taken,
and the list and the resolution decide separately what fits. The list goes through
the positions of the heap and through the declared classes. The resolution looks at
one object or one class, and the path condition then has checks of its own.

For objects that are there both come down to the same condition: some clause has
created the object, and its class can be used as the static class of the reference.
For classes they differ in two places. A class that is declared under the name of an
array is offered for that array without a look at whether it is abstract, and then
refused. And a static class that is not declared stands for itself alone, although
declared classes may extend it: these are never offered, and no branch tries them.

## Main definitions

* `ErrorKind.isMisfit`: The error says that a way to resolve a reference is not one.
* `Environment.CanAlias`: A reference can be an object that is there.
* `ClassTable.Provides`: A declared class that is offered for a static class.

## Theorems

* `mem_instantiable_iff`: The classes that are offered for a static class.
* `mem_aliasPositions_iff`, `resolveAlias_ok_iff`: Objects that are offered are those
  that are accepted.
* `resolveExpand_misfit_iff`: An expansion to a class that fits is a misfit only if
  the class is abstract.
* `mem_successors`: Every way has its successor.
* `candidates_accepted`: What is offered is accepted, but for abstract arrays.
* `declared_subclass_tried`: Every declared class that fits is tried, if the static
  class is declared as well.
-/

namespace PathWitness

/-- The error says that the way in which a reference was to be resolved is not one. -/
def ErrorKind.isMisfit : ErrorKind → Bool
  | incompatible | noObject | danglingAlias | alreadyResolved => true
  | _ => false

theorem SymbolError.kind_isMisfit (e : SymbolError) : e.kind.isMisfit = false := by
  cases e <;> rfl

namespace ClassTable

variable {t : ClassTable} {n c : String}

/-- A declared class that is offered for a static class. -/
structure Provides (t : ClassTable) (c n : String) : Prop where
  concrete : t.isAbstract n = false
  subclass : t.isSubclass n c = true
  /-- Only the root class stands for others without being declared. -/
  known : c ∈ t.classes.map ClassDecl.name ∨ c = rootClass

theorem mem_names_iff : c ∈ t.classes.map ClassDecl.name ↔ (t.find? c).isSome = true := by
  cases hfind : t.find? c with
  | none => simp [not_mem_of_find? hfind]
  | some d =>
      obtain ⟨hd, hname⟩ := find?_name hfind
      exact ⟨fun _ => rfl, fun _ => List.mem_map.2 ⟨d, hd, hname⟩⟩

theorem isAbstract_of_mem (hnames : (t.classes.map ClassDecl.name).Nodup) {d : ClassDecl}
    (hd : d ∈ t.classes) : t.isAbstract d.name = d.isAbstract := by
  rw [isAbstract, find?_of_mem hnames hd]
  rfl

/-- An array and a class that is not declared are offered for themselves, and for other
    classes the declared ones that fit. -/
theorem mem_instantiable_iff (hnames : (t.classes.map ClassDecl.name).Nodup) :
    n ∈ t.instantiable c ↔
      n = c ∧ (Descriptor.isArray c = true ∨ c ∉ t.classes.map ClassDecl.name) ∨
      n ∈ t.classes.map ClassDecl.name ∧ Descriptor.isArray c = false ∧ t.Provides c n := by
  have hdeclared : n ∈ (t.classes.filter fun d => !d.isAbstract && t.isSubclass d.name c).map
      ClassDecl.name ↔ n ∈ t.classes.map ClassDecl.name ∧ t.isAbstract n = false ∧
        t.isSubclass n c = true := by
    simp only [List.mem_map, List.mem_filter, Bool.and_eq_true, Bool.not_eq_true']
    constructor
    · rintro ⟨d, ⟨hd, hconcrete, hsub⟩, rfl⟩
      exact ⟨⟨d, hd, rfl⟩, by rw [isAbstract_of_mem hnames hd]; exact hconcrete, hsub⟩
    · rintro ⟨⟨d, hd, rfl⟩, hconcrete, hsub⟩
      rw [isAbstract_of_mem hnames hd] at hconcrete
      exact ⟨d, ⟨hd, hconcrete, hsub⟩, rfl⟩
  unfold instantiable
  by_cases harray : Descriptor.isArray c = true
  · simp [harray]
  · have hclass : Descriptor.isArray c = false := Bool.not_eq_true _ ▸ harray
    rw [if_neg harray]
    by_cases hknown : c ∈ t.classes.map ClassDecl.name
    · -- A declared class is offered as one of those that fit.
      simp only [mem_names_iff.1 hknown, Bool.not_true, Bool.false_and, Bool.false_eq_true,
        if_false, if_true, List.nil_append, hdeclared]
      constructor
      · rintro ⟨hn, hconcrete, hsub⟩
        exact .inr ⟨hn, hclass, hconcrete, hsub, .inl hknown⟩
      · rintro (⟨-, harray' | hunknown⟩ | ⟨hn, -, hprovides⟩)
        · exact absurd harray' harray
        · exact absurd hknown hunknown
        · exact ⟨hn, hprovides.concrete, hprovides.subclass⟩
    · have hnone : (t.find? c).isSome = false := by
        rw [← Bool.not_eq_true, ← mem_names_iff]
        exact hknown
      by_cases hroot : c = rootClass
      · subst hroot
        simp only [hnone, bne_self_eq_false, Bool.and_false, Bool.false_eq_true, if_false,
          List.singleton_append, List.mem_cons, hdeclared]
        constructor
        · rintro (heq | ⟨hn, hconcrete, hsub⟩)
          · exact .inl ⟨heq, .inr hknown⟩
          · exact .inr ⟨hn, hclass, hconcrete, hsub, .inr rfl⟩
        · rintro (⟨heq, -⟩ | ⟨hn, -, hprovides⟩)
          · exact .inl heq
          · exact .inr ⟨hn, hprovides.concrete, hprovides.subclass⟩
      · have hother : (c != rootClass) = true := bne_iff_ne.2 hroot
        simp only [hnone, hother, Bool.not_false, Bool.and_self, if_true, List.mem_singleton]
        constructor
        · intro heq
          exact .inl ⟨heq, .inr hknown⟩
        · rintro (⟨heq, -⟩ | ⟨-, -, hprovides⟩)
          · exact heq
          · exact absurd hprovides.known (not_or.2 ⟨hknown, hroot⟩)

/-- A class that is offered can be used as the static class. It is abstract only if an
    array is declared. -/
theorem fits_of_mem_instantiable (hnames : (t.classes.map ClassDecl.name).Nodup)
    (h : n ∈ t.instantiable c) : t.isSubclass n c = true ∧
      (t.isAbstract n = true ↔ n = c ∧ Descriptor.isArray c = true ∧ t.isAbstract c = true) := by
  rcases (mem_instantiable_iff hnames).1 h with ⟨rfl, hown⟩ | ⟨-, -, hprovides⟩
  · refine ⟨by simp [isSubclass], fun habstract => ⟨rfl, ?_, habstract⟩, fun h => h.2.2⟩
    rcases hown with harray | hunknown
    · exact harray
    · -- A class that is not declared is not abstract.
      rw [mem_names_iff, Option.not_isSome_iff_eq_none] at hunknown
      rw [isAbstract, hunknown] at habstract
      exact absurd habstract (by simp)
  · refine ⟨hprovides.subclass, fun habstract => ?_, ?_⟩
    · rw [hprovides.concrete] at habstract
      exact absurd habstract Bool.false_ne_true
    · rintro ⟨rfl, -, habstract⟩
      exact habstract

/-- A class that is offered is the one that an expansion to its name makes: the empty
    name is offered for itself only. -/
theorem named_of_mem_instantiable (hnames : (t.classes.map ClassDecl.name).Nodup)
    (hnamed : "" ∉ t.classes.map ClassDecl.name) (h : n ∈ t.instantiable c) :
    (if n = "" then c else n) = n := by
  by_cases hempty : n = ""
  · rcases (mem_instantiable_iff hnames).1 h with ⟨heq, -⟩ | ⟨hn, -⟩
    · rw [if_pos hempty, heq]
    · rw [hempty] at hn
      exact absurd hn hnamed
  · rw [if_neg hempty]

end ClassTable

namespace PathCondition

variable {pc : PathCondition} {ref : RefSymbol} {p : Int}

theorem Consistent.expandingClause?_isSome_iff (h : pc.Consistent) :
    (pc.expandingClause? p).isSome = true ↔
      ∃ base type, .resolve base (.fresh p type) ∈ pc.clauses := by
  constructor
  · intro hsome
    by_contra hno
    rw [h.expandingClause?_none fun base type hc => hno ⟨base, type, hc⟩] at hsome
    cases hsome
  · rintro ⟨base, type, hc⟩
    have hexpansion := h.expansion?_eq hc
    rw [expansion?] at hexpansion
    obtain ⟨d, hd, -⟩ := Option.bind_eq_some_iff.1 hexpansion
    rw [hd]
    rfl

theorem Consistent.expansion?_isSome_iff (h : pc.Consistent) :
    (pc.expansion? p).isSome = true ↔
      ∃ base type, .resolve base (.fresh p type) ∈ pc.clauses := by
  constructor
  · intro hsome
    obtain ⟨r, hr⟩ := Option.isSome_iff_exists.1 hsome
    obtain ⟨d, hd, -⟩ := Option.bind_eq_some_iff.1 hr
    exact h.expandingClause?_isSome_iff.1 (by rw [hd]; rfl)
  · rintro ⟨base, type, hc⟩
    rw [h.expansion?_eq hc]
    rfl

/-- A reference that is not resolved can be null. -/
theorem assumeNull_ok (hnew : pc.resolvingClause? ref.number = none) :
    ∃ pc', (assumeNull (some ref)).runOn pc = (.ok (), pc') := by
  simp only [assumeNull, checkUnresolved, ConditionM.runOn_bind, ConditionM.runOn_get, andThen_ok,
    hnew, ConditionM.runOn_pure, runOn_appendResolving]
  exact ⟨_, rfl⟩

/-- A reference that is not resolved can be an object if that was created. -/
theorem assumeAliases_cases (hnew : pc.resolvingClause? ref.number = none) :
    (∃ pc', (assumeAliases (some ref) p).runOn pc = (.ok (), pc') ∧
        (pc.expandingClause? p).isSome = true) ∨
      ∃ e, (assumeAliases (some ref) p).runOn pc = (.error e, pc) ∧
        (pc.expandingClause? p).isSome = false := by
  simp only [assumeAliases, checkUnresolved, ConditionM.runOn_bind, ConditionM.runOn_get,
    andThen_ok, hnew, ConditionM.runOn_pure]
  cases pc.expandingClause? p with
  | some earlier => exact .inl ⟨_, rfl, rfl⟩
  | none => exact .inr ⟨_, rfl, rfl⟩

end PathCondition

theorem Heap.mem_positions_iff {h : Heap} {p : Int} :
    p ∈ h.positions ↔ (h.get? p).isSome = true := by
  rw [Heap.get?_isSome_iff, Heap.positions]
  simp only [List.mem_map, List.mem_range]
  constructor
  · rintro ⟨i, hi, rfl⟩
    omega
  · rintro ⟨hlow, hhigh⟩
    exact ⟨(p - 1).toNat, by omega, by omega⟩

namespace Environment

variable {τ : Type} {env : Environment τ} {s : PathState} {u : Session} {ref : RefSymbol} {p : Int}

/-- A reference can be an object that is there: the object was created for a reference,
    and it can be used as the static class. -/
def CanAlias (env : Environment τ) (s : PathState) (ref : RefSymbol) (p : Int) : Prop :=
  (∃ base type, .resolve base (.fresh p type) ∈ s.condition.clauses) ∧
    ∃ o, s.heap.get? p = some o ∧ env.classes.isSubclass o.type (staticClass ref) = true

/-- The objects that are offered. -/
theorem mem_aliasPositions_iff (hs : s.condition.Consistent) :
    p ∈ env.aliasPositions s (staticClass ref) ↔ env.CanAlias s ref p := by
  unfold aliasPositions CanAlias
  rw [List.mem_filter, Heap.mem_positions_iff, Bool.and_eq_true, hs.expansion?_isSome_iff]
  cases s.heap.get? p with
  | none => simp
  | some o => simp

/-- Objects and classes are candidates if they are offered. -/
theorem mem_candidates (hnone : s.condition.resolution? ref.number = none)
    {notNull : List Origin} {cs : List Candidate} (hcs : env.candidates s ref notNull = .ok cs) :
    (∀ p, .aliasOf p ∈ cs ↔ p ∈ env.aliasPositions s (staticClass ref)) ∧
    (∀ n, .expand n ∈ cs ↔ n ∈ env.classes.instantiable (staticClass ref)) ∧
    ∀ n, .unknown n ∉ cs := by
  obtain ⟨_, -, hlist⟩ := bind_eq_ok hcs
  rw [hnone] at hlist
  rw [← Except.ok.inj hlist]
  refine ⟨fun p => ?_, fun n => ?_, fun n => ?_⟩
  all_goals
    split
    · simp
    · simp

/-- No candidate is offered twice: one that excludes itself would have to yield
    nothing. -/
theorem candidates_nodup (hnames : (env.classes.classes.map ClassDecl.name).Nodup)
    (hnamed : "" ∉ env.classes.classes.map ClassDecl.name)
    (hnone : s.condition.resolution? ref.number = none) {notNull : List Origin}
    {cs : List Candidate} (hcs : env.candidates s ref notNull = .ok cs) : cs.Nodup := by
  refine List.Pairwise.imp_of_mem (fun {c c'} hc _ hexcludes heq => ?_)
    (candidates_pairwise hnames hnamed hnone hcs)
  subst heq
  have hyields : ∃ how, c.Yields ref how := by
    cases c with
    | null => exact ⟨_, rfl⟩
    | aliasOf p => exact ⟨_, rfl⟩
    | expand n => exact ⟨_, 0, rfl⟩
    | unknown m => exact absurd hc ((mem_candidates hnone hcs).2.2 m)
  obtain ⟨how, hhow⟩ := hyields
  exact (hexcludes how how hhow hhow).ne rfl

/-- A reference that is not resolved is resolved in the way that is asked for. -/
theorem runOn_resolve (env : Environment τ) (hactive : u.state.status = .active)
    (hnone : u.state.condition.resolution? ref.number = none) :
    (env.resolve ref .null).runOn u = (env.resolveNull ref).runOn u ∧
    (∀ p, (env.resolve ref (.aliasOf p)).runOn u = (env.resolveAlias ref p).runOn u) ∧
    ∀ n, (env.resolve ref (.expand n)).runOn u = (env.resolveExpand ref n).runOn u := by
  unfold resolve
  simp only [TraceM.runOn_bind, TraceM.runOn_state, andThen_ok, TraceM.runOn_ofExcept,
    PathState.checkReadable, hactive, Except.mapError, hnone, PathState.checkActive, implies_true,
    and_self]

section Quiet

-- No rule is about the origin of the reference, so no method runs.
variable (hquiet : env.rules.forOrigin ref.origin = [])

include hquiet

theorem runOn_fireFor (className : String) (kind : TriggerKind) (target : Target) (w : Session) :
    (env.fireFor ref className kind target).runOn w = (.ok (), w) := by
  unfold fireFor fireMatching RuleTable.matching
  rw [hquiet]
  rfl

/-- A resolution that has come to its end is a success. -/
theorem announce_ok (e : Event) (className : String) (kind : TriggerKind) (target : Target)
    (v : Session) : (do
      TraceM.record e
      env.fireFor ref className kind target
      return target : TraceM (ResolveError τ) Target).runOn v
        = (.ok target, ⟨v.state, e :: v.journal⟩) := by
  rw [runOn_announce, runOn_fireFor hquiet, andThen_ok]

theorem resolveNull_ok (hnew : u.state.condition.resolvingClause? ref.number = none) :
    ((env.resolveNull ref).runOn u).1 = .ok .null := by
  obtain ⟨pc, hrun⟩ := PathCondition.assumeNull_ok hnew
  unfold resolveNull
  rw [TraceM.runOn_bind, TraceM.runOn_onCondition, hrun]
  simp only [Except.mapError, andThen_ok]
  rw [announce_ok hquiet]

/-- The objects that are accepted. -/
theorem resolveAlias_ok_iff (hu : u.state.condition.Consistent)
    (hnew : u.state.condition.resolvingClause? ref.number = none) :
    (∃ target, ((env.resolveAlias ref p).runOn u).1 = .ok target) ↔ env.CanAlias u.state ref p := by
  unfold resolveAlias CanAlias
  simp only [TraceM.runOn_bind, TraceM.runOn_state, andThen_ok, TraceM.runOn_ofExcept, Heap.get]
  rw [← hu.expandingClause?_isSome_iff]
  cases u.state.heap.get? p with
  | none => simp [Except.mapError]
  | some o =>
      simp only [Except.mapError, andThen_ok]
      by_cases hsub : env.classes.isSubclass o.type (staticClass ref) = true
      · simp only [hsub, Bool.not_true, Bool.false_eq_true, if_false, Option.some.injEq,
          exists_eq_left', and_true]
        rw [TraceM.runOn_bind, TraceM.runOn_onCondition]
        rcases PathCondition.assumeAliases_cases (p := p) hnew with
          ⟨pc, hrun, hcreated⟩ | ⟨e, hrun, hmissing⟩
        · rw [hrun, hcreated]
          simp only [Except.mapError, andThen_ok]
          rw [announce_ok hquiet]
          exact ⟨fun _ => trivial, fun _ => ⟨_, rfl⟩⟩
        · rw [hrun, hmissing]
          simp only [Except.mapError, andThen_error]
          simp
      · simp [hsub]

/-- An expansion to a class that fits is a misfit only if the class is abstract: the
    object has a new position, and all that is left to go wrong are symbols. -/
theorem resolveExpand_misfit_iff [Fault τ] (hu : u.state.Coherent env.classes)
    (href : .ref ref ∈ u.state.symbols.symbols)
    (hnone : u.state.condition.resolution? ref.number = none) {n : String}
    (hnamed : (if n = "" then staticClass ref else n) = n)
    (hsub : env.classes.isSubclass n (staticClass ref) = true) :
    (∃ e, ((env.resolveExpand ref n).runOn u).1 = .error e ∧ e.kind.isMisfit = true) ↔
      env.classes.isAbstract n = true := by
  unfold resolveExpand
  rw [hnamed]
  simp only [hsub, Bool.not_true, Bool.false_eq_true, if_false]
  by_cases habstract : env.classes.isAbstract n = true
  · simp only [habstract, if_true, iff_true]
    exact ⟨_, rfl, rfl⟩
  · simp only [habstract, Bool.false_eq_true, if_false, iff_false]
    rintro ⟨e, he, hmisfit⟩
    by_cases harray : Descriptor.isArray n = true
    · simp only [harray, if_true] at he
      rw [TraceM.runOn_bind] at he
      rcases expandArray_cases (τ := τ) hu href hsub hnone harray with
        ⟨error, hfail⟩ | ⟨s, c, hok, -, -⟩
      · rw [hfail] at he
        rw [← Except.error.inj he, ResolveError.kind, error.kind_isMisfit] at hmisfit
        cases hmisfit
      · rw [hok, andThen_ok, announce_ok hquiet] at he
        cases he
    · simp only [harray, Bool.false_eq_true, if_false] at he
      rw [TraceM.runOn_bind] at he
      obtain ⟨s, hok | ⟨e', hfail, hfills⟩, -, -⟩ :=
        expandObject_cases env hu href hsub hnone (Bool.not_eq_true _ ▸ harray)
      · rw [hok, andThen_ok, announce_ok hquiet] at he
        cases he
      · rw [hfail] at he
        obtain ⟨f, -, error, hcause, -⟩ := hfills.failed e' rfl
        rw [← Except.error.inj he, hcause, ResolveError.kind, error.kind_isMisfit] at hmisfit
        cases hmisfit

end Quiet

/-- Every way in a list has its successor, if all of them succeed. -/
theorem mem_successors {several : Bool} {i : Nat} {cs : List Candidate} {j j' : Journal}
    {next : List PathState} (hrun : env.successors s ref several i cs j = (.ok next, j'))
    {c : Candidate} (hc : c ∈ cs) :
    ∃ t ∈ next, ∃ i' j₁ j₂, env.successor s ref several i' c j₁ = (.ok t, j₂) := by
  induction cs generalizing i j j' next with
  | nil => exact absurd hc List.not_mem_nil
  | cons d rest ih =>
      unfold successors at hrun
      rcases hsuccessor : env.successor s ref several i d j with ⟨e | t, j₁⟩
      · rw [hsuccessor] at hrun
        exact absurd (Prod.mk.inj hrun).1 (by simp)
      · rw [hsuccessor] at hrun
        dsimp only at hrun
        rcases hothers : env.successors s ref several (i + 1) rest j₁ with ⟨e | others, j₂⟩
        · rw [hothers] at hrun
          exact absurd (Prod.mk.inj hrun).1 (by simp)
        · rw [hothers] at hrun
          rw [← Except.ok.inj (Prod.mk.inj hrun).1]
          rcases List.mem_cons.1 hc with rfl | hc
          · exact ⟨t, List.mem_cons_self, i, j, j₁, hsuccessor⟩
          · obtain ⟨t', ht', hmore⟩ := ih hothers hc
            exact ⟨t', List.mem_cons_of_mem t ht', hmore⟩

/-- A path branches on a reference that is not resolved, into one state for every
    candidate. -/
structure BranchesOn (k : Conduct) (env : Environment τ) (s : PathState) (ref : RefSymbol)
    (next : List PathState) : Prop where
  conforms : env.Conforms k
  reached : ∃ signature isStatic names s₀ j,
    PathState.enter signature isStatic names = .ok s₀ ∧ Follows k ⟨s₀, []⟩ ⟨s, j⟩
  symbol : .ref ref ∈ s.symbols.symbols
  unresolved : s.condition.resolution? ref.number = none
  branch : ∃ notNull cs j j', env.candidates s ref notNull = .ok cs ∧
    env.branch s ref cs j = (.ok next, j')

/-- The classes that a reference is expanded to on the branches are those that are
    offered. -/
theorem BranchesOn.expanded_iff {k : Conduct} {next : List PathState}
    (h : env.BranchesOn k s ref next) (hnames : (k.classes.classes.map ClassDecl.name).Nodup)
    (hnamed : "" ∉ k.classes.classes.map ClassDecl.name) {n : String} :
    (∃ t ∈ next, ∃ p, s.condition.clauses ++ [.resolve ref (.fresh p n)]
        <+: t.condition.clauses) ↔ n ∈ k.classes.instantiable (staticClass ref) := by
  obtain ⟨signature, isStatic, names, s₀, j₀, henter, hfollows⟩ := h.reached
  obtain ⟨notNull, cs, j, j', hcs, hbranch⟩ := h.branch
  have hs := (hfollows.onward (PathState.enter_coherent k.classes henter)).coherent
  obtain ⟨-, hexpand, -⟩ := mem_candidates h.unresolved hcs
  unfold Environment.branch at hbranch
  split at hbranch
  · exact absurd (Prod.mk.inj hbranch).1 (by simp)
  · rw [← h.conforms.classes] at hnames hnamed ⊢
    constructor
    · -- The first new clause of a branch tells the candidate.
      rintro ⟨t, ht, p, hfirst⟩
      obtain ⟨-, hall⟩ := successors_branch h.conforms hs h.symbol h.unresolved
        (candidates_pairwise hnames hnamed h.unresolved hcs) hbranch
      obtain ⟨-, c, hc, how, hyields, hfirst'⟩ := hall t ht
      have hsame := (List.prefix_of_prefix_length_le hfirst hfirst' (by simp)).eq_of_length
        (by simp)
      have hhow : how = .fresh p n := by simpa using (List.append_cancel_left hsame).symm
      subst hhow
      cases c with
      | null => cases hyields
      | aliasOf q => cases hyields
      | unknown m => exact absurd hyields id
      | expand m =>
          obtain ⟨q, hq⟩ := hyields
          have hm := (hexpand m).1 hc
          rw [ClassTable.named_of_mem_instantiable hnames hnamed hm] at hq
          rw [(Resolution.fresh.inj hq).2]
          exact hm
    · intro hn
      obtain ⟨t, ht, i, j₁, j₂, hsuccessor⟩ := mem_successors hbranch ((hexpand n).2 hn)
      obtain ⟨how, ⟨p, rfl⟩, hfirst⟩ :=
        (successor_onward h.conforms hs h.symbol hsuccessor).2 h.unresolved
      rw [ClassTable.named_of_mem_instantiable hnames hnamed hn] at hfirst
      exact ⟨t, ht, p, hfirst⟩

end Environment

/-- What is offered for an unresolved reference that no rule is about is what is
    accepted on a copy of the path. Nothing is offered twice, an object is offered exactly
    if the reference can be resolved to it, and what is offered is no misfit, unless the
    table declares an abstract class under the name of an array. -/
theorem candidates_accepted {τ : Type} [Fault τ] {env : Environment τ} {decls : List ClassDecl}
    (hclasses : ClassTable.ofList decls = .ok env.classes) {signature : Signature}
    {isStatic : Bool} {names : List String} {s₀ s : PathState}
    (henter : PathState.enter signature isStatic names = .ok s₀)
    (hreach : Reaches env.classes s₀ s) {ref : RefSymbol} (href : .ref ref ∈ s.symbols.symbols)
    (hnone : s.condition.resolution? ref.number = none)
    (hquiet : env.rules.forOrigin ref.origin = []) (notNull : List Origin) :
    ∃ cs t, env.candidates s ref notNull = .ok cs ∧ s.copy = .ok t ∧ cs.Nodup ∧
      (∀ p j, .aliasOf p ∈ cs ↔
        ∃ target, ((env.resolve ref (.aliasOf p)).runOn ⟨t, j⟩).1 = .ok target) ∧
      ∀ c ∈ cs, ∀ j,
        (∃ e, ((env.resolve ref c).runOn ⟨t, j⟩).1 = .error e ∧ e.kind.isMisfit = true) ↔
          c = .expand (Environment.staticClass ref) ∧
            Descriptor.isArray (Environment.staticClass ref) = true ∧
            env.classes.isAbstract (Environment.staticClass ref) = true := by
  obtain ⟨hnames, hnamed⟩ := ClassTable.names_of_ofList hclasses
  have hs := (hreach.kept (PathState.enter_coherent env.classes henter)).1
  have hcopy : s.copy = .ok { s with status := .active } := by
    rw [PathState.copy, hs.checkReadable]
    rfl
  have ht := (PathState.Kept.copy hcopy hs).1
  have hnew := hs.parts.condition.resolvingClause?_none hnone
  cases hcs : env.candidates s ref notNull with
  | error e =>
      simp only [Environment.candidates, hs.checkReadable, hnone, bind, Except.bind, pure,
        Except.pure, reduceCtorEq] at hcs
  | ok cs =>
      obtain ⟨halias, hexpand, hunknown⟩ := Environment.mem_candidates hnone hcs
      refine ⟨cs, _, rfl, hcopy, Environment.candidates_nodup hnames hnamed hnone hcs,
        fun p j => ?_, fun c hc j => ?_⟩
      · obtain ⟨-, hrun, -⟩ := Environment.runOn_resolve env
          (u := ⟨{ s with status := .active }, j⟩) rfl hnone
        rw [halias, Environment.mem_aliasPositions_iff hs.parts.condition, hrun,
          Environment.resolveAlias_ok_iff hquiet ht.parts.condition hnew]
        rfl
      · obtain ⟨hnull, hobject, hclass⟩ := Environment.runOn_resolve env
          (u := ⟨{ s with status := .active }, j⟩) rfl hnone
        cases c with
        | null =>
            rw [hnull, Environment.resolveNull_ok hquiet hnew]
            simp
        | aliasOf p =>
            -- An object that is offered is accepted.
            have hcan := (Environment.mem_aliasPositions_iff hs.parts.condition).1 ((halias p).1 hc)
            obtain ⟨target, hok⟩ := (Environment.resolveAlias_ok_iff (u := ⟨_, j⟩) hquiet
              ht.parts.condition hnew).2 hcan
            rw [hobject, hok]
            simp
        | expand n =>
            have hn := (hexpand n).1 hc
            obtain ⟨hsub, habstract⟩ := ClassTable.fits_of_mem_instantiable hnames hn
            rw [hclass, Environment.resolveExpand_misfit_iff hquiet ht href hnone
              (ClassTable.named_of_mem_instantiable hnames hnamed hn) hsub, habstract]
            simp
        | unknown m => exact absurd hc (hunknown m)

/-- A method that is given two vehicles. -/
def fleetMethod : Signature := ⟨"Fleet", "(LVehicle;LVehicle;)V", "swap"⟩

def firstVehicle : RefSymbol := ⟨0, "LVehicle;", .ofRoot "first"⟩

def secondVehicle : RefSymbol := ⟨1, "LVehicle;", .ofRoot "second"⟩

/-- The state at the entry of the method. -/
def fleetEntry : PathState where
  signature := fleetMethod
  isStatic := true
  frame := [⟨0, "first", "LVehicle;", .ref firstVehicle⟩,
    ⟨1, "second", "LVehicle;", .ref secondVehicle⟩]
  symbols := ⟨[.ref firstVehicle, .ref secondVehicle]⟩

/-- Resolves references to vehicles without any rules. -/
def fleetEnvironment : Environment Empty where
  classes := ClassTable.vehicles

/-- The first vehicle is a truck. -/
def fleetSession : Session :=
  ((fleetEnvironment.resolve firstVehicle (.expand "Truck")).runOn ⟨fleetEntry, []⟩).2

/-- The second vehicle is null, or the truck, or another truck. -/
def fleetCandidates : List Candidate := [.null, .aliasOf 1, .expand "Truck"]

theorem enter_fleet : PathState.enter fleetMethod true ["first", "second"] = .ok fleetEntry := by
  have hparameters : Descriptor.parameters fleetMethod.descriptor
      = .ok [.typed "LVehicle;", .typed "LVehicle;"] := by cbv
  have hresult : Descriptor.result fleetMethod.descriptor = .ok "V" := by cbv
  rw [PathState.enter, hparameters, hresult]
  rfl

theorem fleetSession_unresolved :
    .ref secondVehicle ∈ fleetSession.state.symbols.symbols ∧
      fleetSession.state.condition.resolution? secondVehicle.number = none := by
  decide +kernel

theorem candidates_fleet :
    fleetEnvironment.candidates fleetSession.state secondVehicle [] = .ok fleetCandidates := by
  decide +kernel

theorem candidates_accepted_fleet :
    ClassTable.ofList ClassTable.vehicleDecls = .ok fleetEnvironment.classes ∧
    PathState.enter fleetMethod true ["first", "second"] = .ok fleetEntry ∧
    Reaches fleetEnvironment.classes fleetEntry fleetSession.state ∧
    ∃ t, fleetSession.state.copy = .ok t ∧
      (∃ target, ((fleetEnvironment.resolve secondVehicle (.aliasOf 1)).runOn ⟨t, []⟩).1
        = .ok target) ∧
      ∀ c ∈ fleetCandidates, ∀ e,
        ((fleetEnvironment.resolve secondVehicle c).runOn ⟨t, []⟩).1 = .error e →
        e.kind.isMisfit = false := by
  have hreach : Reaches fleetEnvironment.classes fleetEntry fleetSession.state :=
    .resolve fleetEnvironment _ _ [] (.refl _) (.symbol (by decide)) (.refl _) rfl
      fun invoke hi => by cases hi
  obtain ⟨href, hnone⟩ := fleetSession_unresolved
  obtain ⟨cs, t, hcs, hcopy, -, halias, hmisfit⟩ :=
    candidates_accepted ClassTable.ofList_vehicles enter_fleet hreach href hnone rfl []
  rw [candidates_fleet] at hcs
  rw [← Except.ok.inj hcs] at halias hmisfit
  refine ⟨ClassTable.ofList_vehicles, enter_fleet, hreach, t, hcopy,
    (halias 1 []).1 (by decide), fun c hc e he => ?_⟩
  -- Vehicles are no arrays.
  rw [← Bool.not_eq_true]
  intro hbad
  obtain ⟨-, harray, -⟩ := (hmisfit c hc []).1 ⟨e, he, hbad⟩
  exact absurd harray (by decide)

/-- The class of integer arrays is declared, and abstract. -/
def abstractArray : Environment Empty where
  classes := ⟨[⟨"[I", rootClass, true, []⟩]⟩

/-- The array is offered at the entry of the method, and refused. -/
theorem abstract_array_refused :
    ClassTable.ofList [⟨"[I", "", true, []⟩] = .ok abstractArray.classes ∧
    PathState.enter searchMethod true ["list", "keys"] = .ok searchEntry ∧
    searchEntry.status = .active ∧
    abstractArray.candidates searchEntry ⟨1, "[I", .ofRoot "keys"⟩ []
      = .ok [.null, .expand "[I"] ∧
    ∃ e, ((abstractArray.resolve ⟨1, "[I", .ofRoot "keys"⟩ (.expand "[I")).runOn
      ⟨searchEntry, []⟩).1 = .error e ∧ e.kind = .incompatible := by
  exact ⟨rfl, enter_search, rfl, rfl, .abstractClass "[I", rfl, rfl⟩

/-- A declared class is offered for a static class, and tried by the branches on a
    reference of that class, exactly if it can have instances, can be used as the static
    class, and that is declared as well or is the root class. -/
theorem declared_subclass_tried {k : Conduct} {decls : List ClassDecl}
    (hclasses : ClassTable.ofList decls = .ok k.classes) {n c : String}
    (hn : n ∈ k.classes.classes.map ClassDecl.name) (hc : Descriptor.isArray c = false) :
    (n ∈ k.classes.instantiable c ↔ k.classes.Provides c n) ∧
    ∀ {τ : Type} (env : Environment τ) (s : PathState) (ref : RefSymbol) (next : List PathState),
      env.BranchesOn k s ref next → Environment.staticClass ref = c →
      ((∃ t ∈ next, ∃ p, s.condition.clauses ++ [.resolve ref (.fresh p n)]
        <+: t.condition.clauses) ↔ k.classes.Provides c n) := by
  obtain ⟨hnames, hnamed⟩ := ClassTable.names_of_ofList hclasses
  have hprovides : n ∈ k.classes.instantiable c ↔ k.classes.Provides c n := by
    rw [ClassTable.mem_instantiable_iff hnames]
    constructor
    · rintro (⟨rfl, harray | hunknown⟩ | ⟨-, -, hprovides⟩)
      · rw [hc] at harray
        cases harray
      · exact absurd hn hunknown
      · exact hprovides
    · intro hprovides
      exact .inr ⟨hn, hc, hprovides⟩
  refine ⟨hprovides, fun env s ref next hbranches hstatic => ?_⟩
  rw [hbranches.expanded_iff hnames hnamed, hstatic, hprovides]

theorem branch_fleet : ∃ next j,
    fleetEnvironment.branch fleetSession.state secondVehicle fleetCandidates []
      = (.ok next, j) := by
  have hall : (fleetEnvironment.branch fleetSession.state secondVehicle
    fleetCandidates []).1.toOption.isSome = true := by decide +kernel
  generalize fleetEnvironment.branch fleetSession.state secondVehicle fleetCandidates [] = r
    at hall ⊢
  rcases r with ⟨e | next, j⟩
  · simp [Except.toOption] at hall
  · exact ⟨next, j, rfl⟩

theorem declared_subclass_tried_fleet :
    ClassTable.ofList ClassTable.vehicleDecls = .ok ClassTable.vehicles ∧
    "Truck" ∈ ClassTable.vehicles.classes.map ClassDecl.name ∧
    "Truck" ∈ ClassTable.vehicles.instantiable "Vehicle" ∧
    ∃ next, fleetEnvironment.BranchesOn (.underRules ClassTable.vehicles {} False)
        fleetSession.state secondVehicle next ∧
      ∃ t ∈ next, ∃ p, fleetSession.state.condition.clauses ++
        [.resolve secondVehicle (.fresh p "Truck")] <+: t.condition.clauses := by
  have hdeclared : "Truck" ∈ ClassTable.vehicles.classes.map ClassDecl.name := by decide
  have hprovides : ClassTable.vehicles.Provides "Vehicle" "Truck" :=
    ⟨by decide, by decide, .inl (by decide)⟩
  have hconforms : fleetEnvironment.Conforms (.underRules ClassTable.vehicles {} False) :=
    ⟨rfl, rfl, fun _ hi => (by cases hi), fun _ _ => trivial⟩
  have hfollows : Follows (.underRules ClassTable.vehicles {} False) ⟨fleetEntry, []⟩
      fleetSession :=
    .resolve fleetEnvironment _ _ (.refl _) (.symbol (by decide)) (.refl _) rfl rfl
      hconforms.invoke
  obtain ⟨next, j, hbranch⟩ := branch_fleet
  have hbranches : fleetEnvironment.BranchesOn (.underRules ClassTable.vehicles {} False)
      fleetSession.state secondVehicle next :=
    { conforms := hconforms
      reached := ⟨_, _, _, _, fleetSession.journal, enter_fleet, hfollows⟩
      symbol := fleetSession_unresolved.1
      unresolved := fleetSession_unresolved.2
      branch := ⟨[], fleetCandidates, [], j, candidates_fleet, hbranch⟩ }
  obtain ⟨hinstantiable, htried⟩ := declared_subclass_tried
    (k := .underRules ClassTable.vehicles {} False) ClassTable.ofList_vehicles hdeclared
    (c := "Vehicle") (by decide)
  exact ⟨ClassTable.ofList_vehicles, hdeclared, hinstantiable.2 hprovides, next, hbranches,
    (htried fleetEnvironment fleetSession.state secondVehicle next hbranches rfl).2 hprovides⟩

/-- A crane can be used as a machine and can have instances, but it is not offered for
    machines, because these are not declared. -/
theorem undeclared_superclass_missed :
    ClassTable.ofList ClassTable.vehicleDecls = .ok ClassTable.vehicles ∧
    "Crane" ∈ ClassTable.vehicles.classes.map ClassDecl.name ∧
    Descriptor.isArray "Machine" = false ∧ ClassTable.vehicles.isAbstract "Crane" = false ∧
    ClassTable.vehicles.isSubclass "Crane" "Machine" = true ∧
    ClassTable.vehicles.instantiable "Machine" = ["Machine"] := by
  refine ⟨ClassTable.ofList_vehicles, ?_, ?_, ?_, ?_, ?_⟩
  all_goals decide

end PathWitness
