import PathWitness.Proofs.Rule.Firing

/-!
# Which Methods Run

That a rule fires is noted in the journal, and a note does not say that the method of
the rule has run. So methods are made to tell of themselves: before anything else, a
method writes a line into the journal that is made of what it was given. Apart from
that it may do whatever can be done along a path, and the methods of rules that fire
meanwhile tell of themselves too.

Notes and lines are about the same rules and targets, in the same order. This is an
invariant: a note and the line of the method come together, and nothing else writes
either of them. So what holds of firings holds of runs.

## Main definitions

* `Conduct.quiet`: Paths on which no reference is resolved and no rule is fired.
* `Recorded`, `Environment.Records`: Paths on which all methods tell of themselves.
* `Session.Ran`: The runs that were told.
* `RunOrder`: What is known of runs.

## Theorems

* `registered_respects`: Only rules of the table fire.
* `Recorded.follows`: Lines do not matter to a path.
* `Recorded.recording`: Notes and lines are about the same runs.
* `runs_disciplined`: All that holds of runs.
-/

namespace PathWitness

/-- Paths on which no reference is resolved and no rule is fired. -/
def Conduct.quiet (k : Conduct) : Conduct :=
  { k with rules := fun _ => False, direct := False }

namespace Session

/-- The lines that were told, in the order in which this happened. -/
def told (u : Session) : List String :=
  u.journal.reverse.filterMap Event.toldLine?

/-- A line is told. -/
def tell (u : Session) (line : String) : Session :=
  ⟨u.state, .told line :: u.journal⟩

/-- The lines that were told are those of runs of methods: of rules, on targets. -/
def Ran (line : Signature → Target → String → String) (u : Session)
    (runs : List (Rule × Target)) : Prop :=
  u.told = runs.map fun r => line r.1.method r.2 r.1.parameter

end Session

/-- Those of some runs that are of rules about an origin. -/
def runsAt (runs : List (Rule × Target)) (o : Origin) : List (Rule × Target) :=
  runs.filter fun r => r.1.origin.text == o.text

/-- One session follows another along a path on which every method first tells a line,
    made of what it was given. Nothing else tells lines. -/
inductive Recorded (line : Signature → Target → String → String) (k : Conduct) :
    Session → Session → Prop where
  /-- Nothing is done. -/
  | refl (u : Session) : Recorded line k u u
  /-- Something is done that fires no rules. -/
  | quiet {u v w : Session} (h : Recorded line k u v) (hfollows : Follows k.quiet v w)
    (htold : w.told = v.told) : Recorded line k u w
  /-- A reference that was given out earlier is resolved. -/
  | resolve {u v₁ v : Session} {s₂ : PathState} {τ : Type} (env : Environment τ)
    (invoke : Invoker τ) (ref : RefSymbol) (c : Candidate) (h₁ : Recorded line k u v₁)
    (hgiven : Given v₁.state ref s₂) (h₂ : Recorded line k ⟨s₂, v₁.journal⟩ v)
    (hclasses : env.classes = k.classes) (hrules : k.rules env.rules)
    (hinvoke : env.invoke = some invoke)
    (hruns : ∀ method target parameter (w : Session),
      Recorded line k (w.tell (line method target parameter))
        ((invoke method target parameter).runOn w).2) :
    Recorded line k u ((env.resolve ref c).runOn v).2
  /-- The rules that wait for a resolution are fired without one. -/
  | fireMatching {u v : Session} {τ : Type} (hdirect : k.direct) (env : Environment τ)
    (invoke : Invoker τ) (o : Origin) (className : String) (kind : TriggerKind) (target : Target)
    (h : Recorded line k u v) (hrules : k.rules env.rules) (hinvoke : env.invoke = some invoke)
    (hruns : ∀ method target parameter (w : Session),
      Recorded line k (w.tell (line method target parameter))
        ((invoke method target parameter).runOn w).2) :
    Recorded line k u ((env.fireMatching o className kind target).runOn v).2

/-- There is a way to run methods, and they tell of themselves. -/
def Environment.Records {τ : Type} (line : Signature → Target → String → String) (k : Conduct)
    (env : Environment τ) : Prop :=
  ∃ invoke, env.invoke = some invoke ∧ ∀ method target parameter (w : Session),
    Recorded line k (w.tell (line method target parameter))
      ((invoke method target parameter).runOn w).2

/-- What is known of the runs along a path on which rules fire because of resolutions
    only. A method does not know the rule it runs for, so the notes say which it is. -/
structure RunOrder (line : Signature → Target → String → String) (classes : ClassTable)
    (table : RuleTable) (u : Session) : Prop where
  /-- The methods that ran are those of the noted rules, each once for a note and in the
      order of the notes. -/
  ran : u.Ran line u.firings.reverse
  /-- There are no more runs than rules. -/
  bounded : u.told.length ≤ table.size
  /-- A method runs when the reference at the origin of its rule is resolved in the way
      that the rule waits for, and on the target of the resolution. -/
  waited : ∀ f ∈ u.firings, ∃ ref how, .resolve ref how ∈ u.state.condition.clauses ∧
    f.1.origin.text = ref.origin.text ∧ f.1 ∈ table.waiting ref how ∧ f.2 = how.target
  /-- The methods of the rules that wait for one resolution run in the order of the
      rules. -/
  ordered : ∀ ref how, .resolve ref how ∈ u.state.condition.clauses →
    runsAt u.firings.reverse ref.origin <+: (table.waiting ref how).map fun r => (r, how.target)
  /-- When a reference is resolved for the first time, the methods that run about its
      origin are those of the first of the rules that wait, and those of all of them if
      nothing fails. -/
  resolving : ∀ {τ : Type} (env : Environment τ) (ref : RefSymbol) (c : Candidate),
    env.classes = classes → env.rules = table →
    env.Records line (.underRules classes table False) →
    .ref ref ∈ u.state.symbols.symbols → u.state.condition.resolution? ref.number = none →
    ∀ r v, (env.resolve ref c).runOn u = (r, v) →
      ∃ during, v.firings.reverse = u.firings.reverse ++ during ∧
        v.Ran line (u.firings.reverse ++ during) ∧
        (∀ how, .resolve ref how ∈ v.state.condition.clauses →
          runsAt during ref.origin <+: (table.waiting ref how).map fun r => (r, how.target)) ∧
        ∀ target, r = .ok target → ∃ how, .resolve ref how ∈ v.state.condition.clauses ∧
          how.target = target ∧
          runsAt during ref.origin = (table.waiting ref how).map fun r => (r, target)

open Session

variable {line : Signature → Target → String → String} {k : Conduct} {classes : ClassTable}
  {table : RuleTable} {τ : Type} {env : Environment τ} {invoke : Invoker τ} {u v : Session}

section Quiet

theorem Follows.of_quiet (h : Follows k.quiet u v) : Follows k u v := by
  induction h with
  | refl u => exact .refl u
  | lookup o _ ih => exact .lookup o ih
  | assume c hc _ ih => exact .assume c hc ih
  | returnValue x _ hreturn ih => exact .returnValue x ih hreturn
  | throwException type _ hthrow ih => exact .throwException type ih hthrow
  | copy _ hcopy ih => exact .copy ih hcopy
  | withId branch sequence _ ih => exact .withId branch sequence ih
  | told e hquiet _ ih => exact .told e hquiet ih
  | resolve env ref c _ _ _ _ hrules => exact hrules.elim
  | fireMatching hdirect => exact hdirect.elim

/-- Along a path firings are only added. -/
theorem firings_respects (k : Conduct) : Respects k fun u v => u.firings <:+ v.firings := by
  refine Respects.ofFired ⟨⟨fun _ => List.suffix_rfl, fun h h' => h.trans h'⟩,
    fun _ _ => List.suffix_rfl, fun {u e} _ hquiet => ?_⟩ fun _ _ _ _ _ _ _ _ _ =>
      List.suffix_cons _ _
  exact (firings_cons u.state hquiet).symm ▸ List.suffix_rfl

/-- Only rules of the table fire. -/
theorem registered_respects (classes : ClassTable) (table : RuleTable) (direct : Prop) :
    Respects (.underRules classes table direct) fun u v =>
      (∀ f ∈ u.firings, f.1 ∈ table.rules) → ∀ f ∈ v.firings, f.1 ∈ table.rules := by
  refine Respects.ofFired ⟨⟨fun _ h => h, fun h h' hu => h' (h hu)⟩, fun _ _ hu => hu,
    fun {u e} _ hquiet hu => ?_⟩ ?_
  · rw [firings_cons _ hquiet]
    exact hu
  · rintro w _ rfl rule hrule o target - - hw f hf
    rcases List.mem_cons.1 hf with rfl | hf
    · exact hrule
    · exact hw f hf

/-- Where no rule may be fired, none is. -/
theorem Follows.firings_of_quiet (h : Follows k.quiet u v) (hu : u.state.Coherent k.classes) :
    v.firings = u.firings := by
  have hrespects : Respects k.quiet fun u v => v.firings = u.firings :=
    Respects.ofFired ⟨⟨fun _ => rfl, fun h h' => h'.trans h⟩, fun _ _ => rfl,
      fun _ hquiet => firings_cons _ hquiet⟩ fun _ _ hrules => hrules.elim
  exact (h.under hrespects hu).2

end Quiet

theorem Follows.of_tell {l : String} (h : Follows k (u.tell l) v) : Follows k u v :=
  (Follows.told (.told l) rfl (.refl u)).trans h

/-- That methods tell of themselves does not matter to a path. -/
theorem Recorded.follows (h : Recorded line k u v) : Follows k u v := by
  induction h with
  | refl u => exact .refl u
  | quiet _ hfollows _ ih => exact ih.trans hfollows.of_quiet
  | resolve env invoke ref c _ hgiven _ hclasses hrules hinvoke _ ih₁ ih₂ ihruns =>
      refine .resolve env ref c ih₁ hgiven ih₂ hclasses hrules fun invoke' hi m t p w => ?_
      obtain rfl := Option.some.inj (hinvoke.symm.trans hi)
      exact (ihruns m t p w).of_tell
  | fireMatching hdirect env invoke o className kind target _ hrules hinvoke _ ih ihruns =>
      refine .fireMatching hdirect env o className kind target ih hrules
        fun invoke' hi m t p w => ?_
      obtain rfl := Option.some.inj (hinvoke.symm.trans hi)
      exact (ihruns m t p w).of_tell

/-- Methods that tell of themselves do what can be done along a path. -/
theorem Environment.Records.follows (h : env.Records line k) : env.InvokeObeys (Follows k) := by
  obtain ⟨invoke, hinvoke, hruns⟩ := h
  intro invoke' hi method target parameter w
  obtain rfl := Option.some.inj (hinvoke.symm.trans hi)
  exact (hruns method target parameter w).follows.of_tell

namespace Session

theorem told_cons (s s' : PathState) (e : Event) (j : Journal) :
    told ⟨s, e :: j⟩ = told ⟨s', j⟩ ++ e.toldLine?.toList := by
  rw [told, List.reverse_cons, List.filterMap_append, told]
  cases e <;> rfl

/-- Notes and lines are about the same runs. -/
structure Recording (line : Signature → Target → String → String) (classes : ClassTable)
    (u : Session) : Prop where
  coherent : u.state.Coherent classes
  ran : u.Ran line u.firings.reverse

theorem Recording.composes (line : Signature → Target → String → String) (classes : ClassTable) :
    Composes fun u v : Session => u.Recording line classes → v.Recording line classes :=
  ⟨fun _ h => h, fun h h' hu => h' (h hu)⟩

/-- A change of the state, which may be announced. -/
theorem Recording.change (h : u.Recording line classes) {s : PathState} (hs : s.Coherent classes)
    {e : Event} (hquiet : e.firing? = none) (hsilent : e.toldLine? = none) :
    Recording line classes ⟨s, u.journal⟩ ∧ Recording line classes ⟨s, e :: u.journal⟩ := by
  refine ⟨⟨hs, h.ran⟩, hs, ?_⟩
  rw [Ran, told_cons s u.state, hsilent, firings_cons s hquiet]
  exact (List.append_nil _).trans h.ran

/-- A note is made, and the method tells its line. -/
theorem Recording.noteFired (h : u.Recording line classes) (rule : Rule) (o : Origin)
    (target : Target) :
    ((u.noteFired rule o target).tell (line rule.method target rule.parameter)).Recording
      line classes := by
  refine ⟨⟨h.coherent.readable, h.coherent.parts⟩, ?_⟩
  have hfirings : ((u.noteFired rule o target).tell
      (line rule.method target rule.parameter)).firings = (rule, target) :: u.firings := rfl
  have hsilent : (Event.fired rule target).toldLine?.toList = [] := rfl
  rw [Ran, hfirings, List.reverse_cons, List.map_append, ← h.ran, tell, told_cons _ u.state,
    Session.noteFired, told_cons _ u.state, hsilent, List.append_nil]
  rfl

end Session

namespace Environment

-- What a method does after it has told its line keeps notes and lines together.
variable (hinvoke : env.invoke = some invoke)
  (hruns : ∀ method target parameter (w : Session),
    (w.tell (line method target parameter)).Recording line classes →
      ((invoke method target parameter).runOn w).2.Recording line classes)

include hinvoke hruns

/-- The method of a rule runs if the rule is noted to have fired. -/
theorem fire_recording (rule : Rule) (o : Origin) (target : Target) (u : Session) :
    Obeys (fun u v : Session => u.Recording line classes → v.Recording line classes) u
      (env.fire rule o target) := by
  intro hu
  change ((env.fire rule o target).runOn u).2.Recording line classes
  rcases env.fire_cases rule o target u with ⟨e, he⟩ | ⟨-, ⟨hnone, -⟩ | ⟨invoke', hsome, hrun⟩⟩
  · rw [he]
    exact hu
  · cases hinvoke.symm.trans hnone
  · obtain rfl := Option.some.inj (hinvoke.symm.trans hsome)
    rw [hrun, TraceM.runOn_mapError]
    exact hruns _ _ _ _ (hu.noteFired rule o target)

theorem fireMatching_recording (o : Origin) (className : String) (kind : TriggerKind)
    (target : Target) (u : Session) :
    Obeys (fun u v : Session => u.Recording line classes → v.Recording line classes) u
      (env.fireMatching o className kind target) :=
  fireEach_of_fire (Recording.composes line classes) _ fun v rule _ =>
    fire_recording hinvoke hruns rule o target v

/-- Resolving a reference writes neither notes nor lines, but for the rules that fire. -/
theorem resolve_recording (hclasses : env.classes = classes) {ref : RefSymbol}
    (href : .ref ref ∈ u.state.symbols.symbols) (c : Candidate)
    (hu : u.Recording line classes) :
    ((env.resolve ref c).runOn u).2.Recording line classes := by
  subst hclasses
  have houtcome := resolve_outcome hu.coherent href c
  generalize (env.resolve ref c).runOn u = outcome at houtcome
  cases houtcome with
  | known hclause => exact hu
  | refused e => exact hu
  | @broken how s e hsettles _ =>
      exact ⟨((hsettles.changes fun _ _ => True).kept hu.coherent).1, hu.ran⟩
  | @announced how s e className hsettles hquiet _ hsilent =>
      have hs := ((hsettles.changes fun _ _ => True).kept hu.coherent).1
      have hfire : Obeys (fun u v : Session =>
          u.Recording line env.classes → v.Recording line env.classes) ⟨s, e :: u.journal⟩
          (env.fireFor ref className how.kind how.target) :=
        .bind (Recording.composes line env.classes)
          (TraceM.obeys_mapError (fireMatching_recording hinvoke hruns _ _ _ _ _) _)
          fun _ _ _ => .pure (Recording.composes line env.classes) _
      have hend := hfire (hu.change hs hquiet hsilent).2
      change ((env.fireFor ref className how.kind how.target).runOn
        ⟨s, e :: u.journal⟩).2.Recording line env.classes at hend
      rcases hlast : (env.fireFor ref className how.kind how.target).runOn ⟨s, e :: u.journal⟩
        with ⟨r | _, w⟩
      all_goals
        rw [hlast] at hend
        exact hend

end Environment

/-- Along a path on which methods tell of themselves, notes and lines are about the same
    runs. -/
theorem Recorded.recording (h : Recorded line k u v) (hu : u.Recording line k.classes) :
    v.Recording line k.classes := by
  induction h with
  | refl u => exact hu
  | quiet _ hfollows htold ih =>
      have hv := ih hu
      refine ⟨(hfollows.of_quiet.onward hv.coherent).coherent, ?_⟩
      rw [Ran, htold, hfollows.firings_of_quiet hv.coherent]
      exact hv.ran
  | @resolve u v₁ v s₂ τ env invoke ref c h₁ hgiven h₂ hclasses hrules hinvoke _ ih₁ ih₂ ihruns =>
      have hv₁ := ih₁ hu
      have hs₂ : Session.Recording line k.classes ⟨s₂, v₁.journal⟩ :=
        ⟨(hgiven.kept hv₁.coherent).1, hv₁.ran⟩
      -- The reference has stayed a symbol of the path since it was given out.
      have hkept := (h₂.follows.under (clauses_respects k) hs₂.coherent).1
      exact Environment.resolve_recording hinvoke ihruns hclasses
        (hkept.2.subset (hgiven.mem hv₁.coherent)) c (ih₂ hs₂)
  | @fireMatching u v τ hdirect env invoke o className kind target _ _ hinvoke _ ih ihruns =>
      exact Environment.fireMatching_recording hinvoke ihruns o className kind target v (ih hu)

/-- Nothing about the origin of a reference has run before the reference was resolved. -/
theorem FiringOrder.during (hu : FiringOrder classes table u) (hv : v.state.Coherent classes)
    (hclauses : u.state.condition.clauses <+: v.state.condition.clauses)
    {ref : RefSymbol} {how : Resolution} (hc : .resolve ref how ∈ v.state.condition.clauses)
    (hnone : ∀ how', .resolve ref how' ∉ u.state.condition.clauses)
    {during : List (Rule × Target)} (hfirings : v.firings.reverse = u.firings.reverse ++ during) :
    runsAt during ref.origin = v.firingsAt ref.origin := by
  have hbefore : runsAt u.firings.reverse ref.origin = [] := by
    refine List.eq_nil_iff_forall_not_mem.2 fun f hf => ?_
    obtain ⟨hmem, htext⟩ := List.mem_filter.1 hf
    -- The clause that the rule has waited for would have resolved the reference before.
    obtain ⟨ref', how', hc', htext', -⟩ := hu.waited f (List.mem_reverse.1 hmem)
    obtain ⟨rfl, -⟩ := hv.parts.resolve_unique (hclauses.subset hc') hc
      (htext'.symm.trans (beq_iff_eq.1 htext))
    exact hnone how' hc'
  rw [firingsAt, hfirings, List.filter_append]
  change _ = runsAt u.firings.reverse ref.origin ++ runsAt during ref.origin
  rw [hbefore, List.nil_append]

/-- What runs while a reference is resolved for the first time. -/
theorem FiringOrder.resolving (h : FiringOrder classes table u) (hu : u.Recording line classes)
    (hlater : ∀ v, Follows (.underRules classes table False) u v → FiringOrder classes table v)
    (hclasses : env.classes = classes) (hrules : env.rules = table)
    (hrecords : env.Records line (.underRules classes table False)) {ref : RefSymbol}
    (href : .ref ref ∈ u.state.symbols.symbols)
    (hnone : u.state.condition.resolution? ref.number = none) {c : Candidate}
    {r : Except (ResolveError τ) Target} (hrun : (env.resolve ref c).runOn u = (r, v)) :
    ∃ during, v.firings.reverse = u.firings.reverse ++ during ∧
      v.Ran line (u.firings.reverse ++ during) ∧
      (∀ how, .resolve ref how ∈ v.state.condition.clauses →
        runsAt during ref.origin <+: (table.waiting ref how).map fun r => (r, how.target)) ∧
      ∀ target, r = .ok target → ∃ how, .resolve ref how ∈ v.state.condition.clauses ∧
        how.target = target ∧
        runsAt during ref.origin = (table.waiting ref how).map fun r => (r, target) := by
  have hstep : Recorded line (.underRules classes table False) u v := by
    obtain ⟨invoke, hinvoke, hruns⟩ := hrecords
    have hresolve : Recorded line (.underRules classes table False) u
        ((env.resolve ref c).runOn u).2 :=
      .resolve env invoke ref c (.refl u) (.symbol href) (.refl u) hclasses hrules hinvoke hruns
    rwa [hrun] at hresolve
  have hv := hstep.recording hu
  -- What has run meanwhile is told behind what had run before.
  obtain ⟨new, hnew⟩ := (hstep.follows.under (firings_respects _) hu.coherent).2
  have hsplit : v.firings.reverse = u.firings.reverse ++ new.reverse := by
    rw [← hnew, List.reverse_append]
  have hunresolved : ∀ how, .resolve ref how ∉ u.state.condition.clauses := by
    intro how hc
    rw [hu.coherent.parts.condition.resolution?_eq hc] at hnone
    cases hnone
  have hduring : ∀ how, .resolve ref how ∈ v.state.condition.clauses →
      runsAt new.reverse ref.origin = v.firingsAt ref.origin := fun how hc =>
    h.during hv.coherent (hstep.follows.onward hu.coherent).clauses hc hunresolved hsplit
  refine ⟨new.reverse, hsplit, hsplit ▸ hv.ran, fun how hc => ?_, ?_⟩
  · rw [hduring how hc]
    exact (hlater v hstep.follows).ordered ref how hc
  · rintro target rfl
    obtain ⟨how, hc, htarget, hall⟩ := h.complete env ref c target v hclasses hrules
      hrecords.follows href hnone hrun
    exact ⟨how, hc, htarget, (hduring how hc).trans hall⟩

/-- Along a path methods run for the rules of the table that are noted to fire, and none
    runs twice for one rule, origin and position, even if rules are also fired without a
    resolution. If rules fire because of resolutions only, the methods of those that wait
    for a resolution run in order and none is left out. -/
theorem runs_disciplined {specs : List RuleSpec} (htable : RuleTable.ofList specs = .ok table)
    {signature : Signature} {isStatic : Bool} {names : List String} {s : PathState}
    (henter : PathState.enter signature isStatic names = .ok s)
    (line : Signature → Target → String → String) :
    (∀ direct u, Recorded line (.underRules classes table direct) ⟨s, []⟩ u →
      u.Ran line u.firings.reverse ∧ (∀ f ∈ u.firings, f.1 ∈ table.rules) ∧
        (u.firings.map fun f => (f.1.id, f.1.origin.text, f.2.position)).Nodup) ∧
    ∀ u, Recorded line (.underRules classes table False) ⟨s, []⟩ u →
      RunOrder line classes table u := by
  obtain ⟨honce, horder⟩ := firing_discipline classes htable henter
  have hstart : Session.Recording line classes ⟨s, []⟩ :=
    ⟨PathState.enter_coherent classes henter, rfl⟩
  refine ⟨fun direct u hu => ⟨(hu.recording hstart).ran, ?_, honce direct u hu.follows⟩,
    fun u hu => ?_⟩
  · have hregistered := (hu.follows.under (registered_respects classes table direct)
      hstart.coherent).2
    exact hregistered fun f hf => absurd hf List.not_mem_nil
  · have hfirings := horder u hu.follows
    have hrecording := hu.recording hstart
    refine ⟨hrecording.ran, ?_, hfirings.waited, hfirings.ordered, ?_⟩
    · rw [hrecording.ran, List.length_map, List.length_reverse]
      exact hfirings.bounded
    · exact fun env ref c hclasses hrules hrecords href hnone r v hrun =>
        hfirings.resolving hrecording (fun v hv => horder v (hu.follows.trans hv)) hclasses
          hrules hrecords href hnone hrun

section Watched

/-- Two rules about the list, and one about the node after the first. -/
def watchSpecs : List RuleSpec :=
  [⟨some .expands, "list", "Node", ⟨"Search", "()V", "close"⟩, ""⟩,
    ⟨some .aliases, "list.next", "", ⟨"Search", "()V", "note"⟩, ""⟩,
    ⟨some .expands, "list", "Node", ⟨"Search", "()V", "note"⟩, ""⟩]

/-- The rules after registration. -/
def watchTable : RuleTable :=
  ⟨[⟨0, .expands, .ofRoot "list", "Node", ⟨"Search", "()V", "close"⟩, ""⟩,
    ⟨1, .aliases, ⟨"list", [.field "next"]⟩, "", ⟨"Search", "()V", "note"⟩, ""⟩,
    ⟨2, .expands, .ofRoot "list", "Node", ⟨"Search", "()V", "note"⟩, ""⟩]⟩

theorem watchTable_eq : RuleTable.ofList watchSpecs = .ok watchTable := by
  decide +kernel

/-- A method by its name, with its target and its parameter. -/
def runLine (method : Signature) (target : Target) (parameter : String) : String :=
  method.name ++ "(" ++ target.text ++ "," ++ parameter ++ ")"

/-- Methods that tell of themselves before they do anything else. -/
def telling (body : Signature → TraceM Unit Unit) : Invoker Unit :=
  fun method target parameter => do
    TraceM.record (.told (runLine method target parameter))
    body method

/-- Methods of rules do nothing but tell of themselves. -/
def noteEnvironment : Environment Unit where
  classes := nodeClasses
  rules := watchTable
  invoke := some (telling fun _ => pure ())

/-- Makes the node after the first the first node itself, which fires another rule. -/
def watchedClose : TraceM Unit Unit := do
  match ← TraceM.ofPath (fun _ => ()) (PathState.lookup ⟨"list", [.field "next"]⟩) with
  | some (.ref (.symbolic ref)) =>
    let _ ← (noteEnvironment.resolve ref (.aliasOf 1)).mapError fun _ => ()
  | _ => pure ()

/-- The method of the first rule makes a loop. -/
def watchEnvironment : Environment Unit where
  classes := nodeClasses
  rules := watchTable
  invoke := some (telling fun method => if method.name = "close" then watchedClose else pure ())

/-- The session in which the list is a loop of one node. -/
def watchedSession : Session :=
  ((watchEnvironment.resolve ⟨0, "LNode;", .ofRoot "list"⟩ (.expand "")).runOn
    ⟨searchEntry, []⟩).2

theorem telling_recorded {body : Signature → TraceM Unit Unit}
    (h : ∀ method w, Recorded runLine k w ((body method).runOn w).2) (method : Signature)
    (target : Target) (parameter : String) (w : Session) :
    Recorded runLine k (w.tell (runLine method target parameter))
      ((telling body method target parameter).runOn w).2 :=
  h method (w.tell (runLine method target parameter))

/-- What the method of the first rule does is done along a path. -/
theorem watchedClose_recorded (hclasses : k.classes = nodeClasses) (hrules : k.rules watchTable)
    (u : Session) : Recorded runLine k u (watchedClose.runOn u).2 := by
  have hlookup : Recorded runLine k u
      ⟨((PathState.lookup ⟨"list", [.field "next"]⟩).runOn u.state).2, u.journal⟩ :=
    .quiet (.refl u) (.lookup _ (.refl u)) rfl
  unfold watchedClose
  rw [TraceM.runOn_bind, TraceM.runOn_ofPath]
  rcases hread : (PathState.lookup ⟨"list", [.field "next"]⟩).runOn u.state with ⟨e | v, s⟩
  · rw [hread] at hlookup
    exact hlookup
  · rw [hread] at hlookup
    simp only [Except.mapError, andThen_ok]
    split
    · rename_i ref
      have hresolve : Recorded runLine k u
          ((noteEnvironment.resolve ref (.aliasOf 1)).runOn ⟨s, u.journal⟩).2 :=
        .resolve noteEnvironment _ ref (.aliasOf 1) (.refl u) (.read _ hread) (.refl _)
          hclasses.symm hrules rfl (telling_recorded fun _ w => .refl w)
      rw [TraceM.runOn_bind, TraceM.runOn_mapError]
      rcases hrun : (noteEnvironment.resolve ref (.aliasOf 1)).runOn ⟨s, u.journal⟩
        with ⟨e | p, u'⟩
      all_goals
        rw [hrun] at hresolve
        exact hresolve
    · exact hlookup

theorem watchEnvironment_records (hclasses : k.classes = nodeClasses)
    (hrules : k.rules watchTable) : watchEnvironment.Records runLine k := by
  refine ⟨_, rfl, telling_recorded fun method w => ?_⟩
  by_cases hclose : method.name = "close"
  · rw [if_pos hclose]
    exact watchedClose_recorded hclasses hrules w
  · rw [if_neg hclose]
    exact .refl w

theorem watchEnvironment_follows (hclasses : k.classes = nodeClasses)
    (hrules : k.rules watchTable) : watchEnvironment.InvokeObeys (Follows k) :=
  (watchEnvironment_records hclasses hrules).follows

theorem watchedSession_recorded (direct : Prop) :
    Recorded runLine (.underRules nodeClasses watchTable direct) ⟨searchEntry, []⟩
      watchedSession := by
  obtain ⟨invoke, hinvoke, hruns⟩ := watchEnvironment_records
    (k := .underRules nodeClasses watchTable direct) rfl rfl
  exact .resolve watchEnvironment invoke _ _ (.refl _) (.symbol (by decide)) (.refl _) rfl rfl
    hinvoke hruns

/-- The method about the node after the first runs between the two about the list. -/
theorem runs_disciplined_watched :
    RuleTable.ofList watchSpecs = .ok watchTable ∧
      PathState.enter searchMethod true ["list", "keys"] = .ok searchEntry ∧
      Recorded runLine (.underRules nodeClasses watchTable False) ⟨searchEntry, []⟩ watchedSession ∧
      watchedSession.told = ["close(Object[1],)", "note(Object[1],)", "note(Object[1],)"] ∧
      (watchedSession.Ran runLine watchedSession.firings.reverse ∧
        (∀ f ∈ watchedSession.firings, f.1 ∈ watchTable.rules) ∧
        (watchedSession.firings.map fun f => (f.1.id, f.1.origin.text, f.2.position)).Nodup) ∧
      RunOrder runLine nodeClasses watchTable watchedSession :=
  have hrecorded := watchedSession_recorded False
  ⟨watchTable_eq, enter_search, hrecorded, by decide +kernel,
    (runs_disciplined watchTable_eq enter_search runLine).1 False _ hrecorded,
    (runs_disciplined watchTable_eq enter_search runLine).2 _ hrecorded⟩

end Watched

end PathWitness
