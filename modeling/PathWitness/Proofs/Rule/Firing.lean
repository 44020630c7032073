import Mathlib.Data.List.Perm.Subperm
import PathWitness.Proofs.PathState.Follows
import PathWitness.Proofs.Rule.Table

/-!
# When Rules Fire

A rule that waits for the resolution of a reference fires when the reference is
resolved, and its method may resolve further references before the next rule gets
its turn. So the rules that wait for one resolution fire in between those that
wait for others. What holds nevertheless is best said origin by origin: the rules
about one origin fire in the order of their registration, and nothing but the
resolution of the reference at that origin makes them fire.

The reason is that a reference is resolved once. While its rules fire it is
resolved already, so whatever their methods do, they fire no rule about it. This
is what `Tame` carries through the nesting.

That no rule fires twice on a target holds even if rules are fired without a
resolution, because a firing is noted before the method runs.

## Main definitions

* `Session.firings`, `Session.firingsAt`: The rules that have fired.
* `Session.Keyed`: The notes of a state agree with its journal.
* `Session.Disciplined`: Rules have fired in order, because of resolutions.
* `Tame`: Rules about resolved references have not fired again.

## Theorems

* `keyed_respects`: No rule fires twice on a target.
* `fireEach_disciplined`: The rules that wait for a resolution fire in order.
* `tame_respects`: Rules fire in order along a path.
* `firing_discipline`: All that holds of firings.
-/

namespace PathWitness

namespace Session

/-- The rules that have fired and their targets, the latest first. -/
def firings (u : Session) : List (Rule × Target) :=
  u.journal.filterMap Event.firing?

/-- The firings of rules about an origin, in the order in which they happened. -/
def firingsAt (u : Session) (o : Origin) : List (Rule × Target) :=
  u.firings.reverse.filter fun f => f.1.origin.text == o.text

/-- The notes of a state agree with its journal, and no note is made twice. -/
structure Keyed (u : Session) : Prop where
  keys : u.state.fired = u.firings.map fun f => f.1.firingKey f.1.origin f.2
  once : u.state.fired.Nodup

/-- Rules have fired in the order of their registration, and only because of
    resolutions. -/
structure Disciplined (t : RuleTable) (u : Session) : Prop where
  keyed : u.Keyed
  /-- The reference that a rule is about is resolved. -/
  justified : ∀ f ∈ u.firings, ∃ ref how,
    .resolve ref how ∈ u.state.condition.clauses ∧ f.1.origin.text = ref.origin.text
  /-- Rules about a resolved reference have waited for its resolution, and have
      fired in order. -/
  ordered : ∀ ref how, .resolve ref how ∈ u.state.condition.clauses →
    u.firingsAt ref.origin <+: (t.waiting ref how).map fun r => (r, how.target)

variable {u v : Session} {rule : Rule} {o : Origin} {target : Target}

theorem firings_noteFired : (u.noteFired rule o target).firings = (rule, target) :: u.firings :=
  rfl

/-- An event that is no firing, together with a change of the state. -/
theorem firings_cons {e : Event} (s : PathState) (hquiet : e.firing? = none) :
    firings ⟨s, e :: u.journal⟩ = u.firings := by
  rw [firings, List.filterMap_cons, hquiet]
  rfl

theorem mem_firingsAt {f : Rule × Target} :
    f ∈ u.firingsAt o ↔ f ∈ u.firings ∧ f.1.origin.text = o.text := by
  rw [firingsAt, List.mem_filter, List.mem_reverse, beq_iff_eq]

/-- A firing is the last one about its own origin. -/
theorem firingsAt_noteFired_self (h : rule.origin.text = o.text) :
    (u.noteFired rule o target).firingsAt o = u.firingsAt o ++ [(rule, target)] := by
  have hself : (rule.origin.text == o.text) = true := beq_iff_eq.2 h
  rw [firingsAt, firings_noteFired, List.reverse_cons, List.filter_append, firingsAt,
    List.filter_singleton, hself]
  rfl

/-- A firing does not concern other origins. -/
theorem firingsAt_noteFired_other {o' : Origin} (h : rule.origin.text ≠ o'.text) :
    (u.noteFired rule o target).firingsAt o' = u.firingsAt o' := by
  have hother : (rule.origin.text == o'.text) = false := beq_eq_false_iff_ne.2 h
  rw [firingsAt, firings_noteFired, List.reverse_cons, List.filter_append, firingsAt,
    List.filter_singleton, hother]
  exact List.append_nil _

/-- What is read off a journal depends on the firings in it. -/
theorem firingsAt_congr (h : v.firings = u.firings) (o : Origin) :
    v.firingsAt o = u.firingsAt o := by
  rw [firingsAt, h, firingsAt]

theorem Keyed.congr (h : u.Keyed) (hfired : v.state.fired = u.state.fired)
    (hfirings : v.firings = u.firings) : v.Keyed :=
  ⟨by rw [hfired, hfirings]; exact h.keys, by rw [hfired]; exact h.once⟩

/-- A firing that was not noted before keeps notes and journal in agreement. -/
theorem Keyed.noteFired (h : u.Keyed) (htext : rule.origin.text = o.text)
    (hkey : rule.firingKey o target ∉ u.state.fired) : (u.noteFired rule o target).Keyed := by
  refine ⟨?_, List.nodup_cons.2 ⟨hkey, h.once⟩⟩
  change rule.firingKey o target :: u.state.fired = _
  rw [firings_noteFired, List.map_cons, ← h.keys, Rule.firingKey, Rule.firingKey, htext]

end Session

open Session

variable {classes : ClassTable} {table : RuleTable} {u v w : Session} {ref : RefSymbol}
  {how : Resolution}

/-- No rule fires twice on a target, even without resolutions. -/
theorem keyed_respects (k : Conduct) : Respects k fun u v => u.Keyed → v.Keyed := by
  refine Respects.ofFired ⟨⟨fun _ h => h, fun h h' hu => h' (h hu)⟩, fun _ hchange hu => ?_,
    fun _ hquiet hu => ?_⟩ fun _ _ _ _ _ o target htext hkey hu => hu.noteFired htext hkey
  · exact hu.congr hchange.fired rfl
  · exact hu.congr rfl (firings_cons _ hquiet)

/-- Rules fire in order from one session to another, and those about references
    that are resolved in the first do not fire at all. -/
structure Tame (t : RuleTable) (u v : Session) : Prop where
  clauses : u.state.condition.clauses <+: v.state.condition.clauses
  disciplined : v.Disciplined t
  settled : ∀ ref how, .resolve ref how ∈ u.state.condition.clauses →
    v.firingsAt ref.origin = u.firingsAt ref.origin

theorem Tame.composes (t : RuleTable) : Composes fun u v => u.Disciplined t → Tame t u v where
  refl := fun u hu => ⟨List.prefix_refl _, hu, fun _ _ _ => rfl⟩
  trans := fun huv hvw hu => by
    have hv := huv hu
    have hw := hvw hv.disciplined
    exact ⟨hv.clauses.trans hw.clauses, hw.disciplined, fun ref how hc =>
      (hw.settled ref how (hv.clauses.subset hc)).trans (hv.settled ref how hc)⟩

/-- A change of the state or a word of the journal: nothing fires. -/
theorem Session.Disciplined.tame (h : u.Disciplined table) (hv : v.state.Coherent classes)
    (hfired : v.state.fired = u.state.fired) (hfirings : v.firings = u.firings)
    (hclauses : u.state.condition.clauses <+: v.state.condition.clauses) : Tame table u v := by
  refine ⟨hclauses, ⟨h.keyed.congr hfired hfirings, fun f hf => ?_, fun ref how hc => ?_⟩,
    fun ref how _ => firingsAt_congr hfirings _⟩
  · rw [hfirings] at hf
    rcases h.justified f hf with ⟨ref, how, hc, htext⟩
    exact ⟨ref, how, hclauses.subset hc, htext⟩
  · rw [firingsAt_congr hfirings]
    -- No rule about a reference has fired before the reference is resolved.
    cases hlist : u.firingsAt ref.origin with
    | nil => exact List.nil_prefix
    | cons f rest =>
        have hf : f ∈ u.firingsAt ref.origin := by rw [hlist]; exact List.mem_cons_self
        obtain ⟨hfirst, htext⟩ := mem_firingsAt.1 hf
        rcases h.justified f hfirst with ⟨ref', how', hc', htext'⟩
        obtain ⟨rfl, rfl⟩ := hv.parts.resolve_unique hc (hclauses.subset hc')
          (htext.symm.trans htext')
        rw [← hlist]
        exact h.ordered ref how hc'

/-- The rules about one reference have gone on firing, in order; those about
    other resolved references have not. -/
structure Advanced (classes : ClassTable) (t : RuleTable) (ref : RefSymbol) (w v : Session) :
    Prop where
  kept : v.state.Coherent classes ∧ w.state.symbols.symbols <+: v.state.symbols.symbols
  clauses : w.state.condition.clauses <+: v.state.condition.clauses
  disciplined : v.Disciplined t
  others : ∀ ref' how', .resolve ref' how' ∈ w.state.condition.clauses →
    ref'.origin.text ≠ ref.origin.text → v.firingsAt ref'.origin = w.firingsAt ref'.origin

namespace Advanced

theorem refl (hw : w.state.Coherent classes) (hd : w.Disciplined table) :
    Advanced classes table ref w w :=
  ⟨⟨hw, List.prefix_refl _⟩, List.prefix_refl _, hd, fun _ _ _ _ => rfl⟩

theorem trans (h : Advanced classes table ref u v) (h' : Advanced classes table ref v w) :
    Advanced classes table ref u w :=
  ⟨⟨h'.kept.1, h.kept.2.trans h'.kept.2⟩, h.clauses.trans h'.clauses, h'.disciplined,
    fun ref' how' hc hne => (h'.others ref' how' (h.clauses.subset hc) hne).trans
      (h.others ref' how' hc hne)⟩

/-- A method runs, and leaves the rules of all resolved references alone. -/
theorem ofTame (hkept : v.state.Coherent classes ∧
      w.state.symbols.symbols <+: v.state.symbols.symbols) (h : Tame table w v) :
    Advanced classes table ref w v :=
  ⟨hkept, h.clauses, h.disciplined, fun ref' how' hc _ => h.settled ref' how' hc⟩

/-- The next of the rules that wait for a resolution fires. -/
theorem noteFired (hw : w.state.Coherent classes) (hd : w.Disciplined table)
    (hc : .resolve ref how ∈ w.state.condition.clauses) {rule : Rule} {done rest : List Rule}
    (hsplit : table.waiting ref how = done ++ rule :: rest)
    (hdone : w.firingsAt ref.origin = done.map fun r => (r, how.target))
    (hkey : rule.firingKey ref.origin how.target ∉ w.state.fired) :
    Advanced classes table ref w (w.noteFired rule ref.origin how.target) ∧
      (w.noteFired rule ref.origin how.target).firingsAt ref.origin
        = (done ++ [rule]).map fun r => (r, how.target) := by
  have hwaiting : rule ∈ table.waiting ref how := by
    rw [hsplit]
    exact List.mem_append_right _ List.mem_cons_self
  have htext : rule.origin.text = ref.origin.text :=
    beq_iff_eq.1 (Bool.and_eq_true_iff.1 (List.mem_filter.1 hwaiting).2).1
  have hself : (w.noteFired rule ref.origin how.target).firingsAt ref.origin
      = (done ++ [rule]).map fun r => (r, how.target) := by
    rw [firingsAt_noteFired_self htext, hdone, List.map_append]
    rfl
  have hothers : ∀ ref' how', .resolve ref' how' ∈ w.state.condition.clauses →
      ref'.origin.text ≠ ref.origin.text →
      (w.noteFired rule ref.origin how.target).firingsAt ref'.origin = w.firingsAt ref'.origin :=
    fun ref' _ _ hne => firingsAt_noteFired_other (fun heq => hne (heq.symm.trans htext))
  refine ⟨⟨⟨⟨hw.readable, hw.parts⟩, List.prefix_refl _⟩, List.prefix_refl _,
    ⟨hd.keyed.noteFired htext hkey, fun f hf => ?_, fun ref' how' hc' => ?_⟩, hothers⟩, hself⟩
  · rcases List.mem_cons.1 hf with rfl | hf
    · exact ⟨ref, how, hc, htext⟩
    · exact hd.justified f hf
  · by_cases hsame : ref'.origin.text = ref.origin.text
    · obtain ⟨rfl, rfl⟩ := hw.parts.resolve_unique hc' hc hsame
      have hnext : done ++ [rule] <+: done ++ rule :: rest := ⟨rest, by
        rw [List.append_assoc, List.singleton_append]⟩
      rw [hself, hsplit]
      exact hnext.map _
    · rw [hothers ref' how' hc' hsame]
      exact hd.ordered ref' how' hc'

end Advanced

/-- A rule that has not had its turn was not noted: a note tells the rule and the
    origin, and rules have numbers of their own. -/
theorem key_fresh (hids : (table.rules.map Rule.id).Nodup) (hd : w.Disciplined table)
    {rule : Rule} {done rest : List Rule} (hsplit : table.waiting ref how = done ++ rule :: rest)
    (hdone : w.firingsAt ref.origin = done.map fun r => (r, how.target)) :
    rule.firingKey ref.origin how.target ∉ w.state.fired := by
  intro hmem
  rw [hd.keyed.keys] at hmem
  rcases List.mem_map.1 hmem with ⟨f, hf, hkey⟩
  obtain ⟨hid, htext⟩ := firingKey_inj hkey
  have hat : f ∈ w.firingsAt ref.origin := mem_firingsAt.2 ⟨hf, htext⟩
  rw [hdone] at hat
  rcases List.mem_map.1 hat with ⟨r, hr, rfl⟩
  have hsub : ((done ++ rule :: rest).map Rule.id).Sublist (table.rules.map Rule.id) := by
    rw [← hsplit]
    exact List.filter_sublist.map _
  have hnodup := hids.sublist hsub
  rw [List.map_append, List.map_cons, List.nodup_append] at hnodup
  exact hnodup.2.2 r.id (List.mem_map_of_mem hr) rule.id List.mem_cons_self hid

/-- The rules that wait for a resolution fire in order, as far as they come, and
    all of them if none fails. -/
theorem fireEach_disciplined {τ : Type} {env : Environment τ}
    (hids : (table.rules.map Rule.id).Nodup)
    (hinvoke : env.InvokeObeys (Under classes fun u v => u.Disciplined table → Tame table u v))
    {rest done : List Rule} (hsplit : table.waiting ref how = done ++ rest)
    (hw : w.state.Coherent classes) (hd : w.Disciplined table)
    (hc : .resolve ref how ∈ w.state.condition.clauses)
    (hdone : w.firingsAt ref.origin = done.map fun r => (r, how.target)) :
    let r := (env.fireEach ref.origin how.target rest).runOn w
    Advanced classes table ref w r.2 ∧ ∀ n, r.1 = .ok n →
      r.2.firingsAt ref.origin = (table.waiting ref how).map fun r => (r, how.target) := by
  have hfailed : ∀ {e : FireError τ} {n : Nat}, (.error e : Except (FireError τ) Nat) ≠ .ok n := by
    simp only [ne_eq, reduceCtorEq, not_false_eq_true, implies_true]
  -- The induction is on the rules that have not had their turn.
  induction rest generalizing w done with
  | nil =>
      rw [List.append_nil] at hsplit
      exact ⟨.refl hw hd, fun _ _ => by rw [hsplit]; exact hdone⟩
  | cons rule rest ih =>
      have hkey := key_fresh hids hd hsplit hdone
      have hnot : w.state.hasFired (rule.firingKey ref.origin how.target) = false := by
        rw [PathState.hasFired, ← Bool.not_eq_true, List.contains_iff_mem]
        exact hkey
      obtain ⟨hnoted, hlast⟩ := Advanced.noteFired hw hd hc hsplit hdone hkey
      unfold Environment.fireEach
      simp only [TraceM.runOn_bind, TraceM.runOn_state, andThen_ok, hnot, Bool.false_eq_true,
        if_false]
      rcases env.fire_cases rule ref.origin how.target w with ⟨e, he⟩ |
        ⟨-, ⟨-, e, he⟩ | ⟨invoke, hsome, hrun⟩⟩
      · rw [he]
        exact ⟨.refl hw hd, fun _ h => absurd h hfailed⟩
      · rw [he]
        exact ⟨hnoted, fun _ h => absurd h hfailed⟩
      · have hmethod := hinvoke invoke hsome rule.method how.target rule.parameter
          (w.noteFired rule ref.origin how.target) hnoted.kept.1
        obtain ⟨hkept, htame⟩ := hmethod
        have htame := htame hnoted.disciplined
        rw [hrun, TraceM.runOn_mapError]
        rcases hresult : (invoke rule.method how.target rule.parameter).runOn
          (w.noteFired rule ref.origin how.target) with ⟨e | _, v⟩
        · unfold TraceM.runOn at hresult
          rw [hresult] at hkept htame
          exact ⟨hnoted.trans (.ofTame hkept htame), fun _ h => absurd h hfailed⟩
        · unfold TraceM.runOn at hresult
          rw [hresult] at hkept htame
          -- While the method ran no rule about the reference has fired.
          have hstill := (htame.settled ref how (hnoted.clauses.subset hc)).trans hlast
          have hrest := ih (by rw [hsplit, List.append_assoc, List.singleton_append])
            hkept.1 htame.disciplined (htame.clauses.subset (hnoted.clauses.subset hc)) hstill
          simp only [Except.mapError, andThen_ok]
          obtain ⟨hadvanced, hall⟩ := hrest
          rcases hlater : (env.fireEach ref.origin how.target rest).runOn v with ⟨e | n, v'⟩
          · rw [hlater] at hadvanced
            exact ⟨(hnoted.trans (.ofTame hkept htame)).trans hadvanced,
              fun _ h => absurd h hfailed⟩
          · rw [hlater] at hadvanced hall
            exact ⟨(hnoted.trans (.ofTame hkept htame)).trans hadvanced, fun _ _ => hall n rfl⟩

/-- Right after a reference was resolved, none of its rules has fired. -/
theorem Settles.tame {c : Candidate} {s : PathState} {e : Event}
    (h : Settles classes u.state ref c how s) (hquiet : e.firing? = none)
    (hu : u.state.Coherent classes) (hd : u.Disciplined table) :
    s.Coherent classes ∧ Tame table u ⟨s, e :: u.journal⟩ ∧
      .resolve ref how ∈ s.condition.clauses ∧
      Session.firingsAt ⟨s, e :: u.journal⟩ ref.origin = [] := by
  have hchanges := h.changes fun _ _ => True
  obtain ⟨hs, -⟩ := hchanges.kept hu
  have hfirings : Session.firings ⟨s, e :: u.journal⟩ = u.firings := firings_cons s hquiet
  have hclause := h.clause
  refine ⟨hs, hd.tame (v := ⟨s, e :: u.journal⟩) hs hchanges.fired hfirings hchanges.clauses,
    hclause, ?_⟩
  rw [firingsAt_congr hfirings]
  refine List.eq_nil_iff_forall_not_mem.2 fun f hf => ?_
  obtain ⟨hmem, htext⟩ := mem_firingsAt.1 hf
  rcases hd.justified f hmem with ⟨ref', how', hc', htext'⟩
  -- The clause that justifies a firing would have resolved the reference before.
  obtain ⟨rfl, rfl⟩ := hs.parts.resolve_unique (hchanges.clauses.subset hc') hclause
    (htext'.symm.trans htext)
  have hsome := hu.parts.condition.resolution?_eq hc'
  rw [h.unresolved] at hsome
  exact absurd hsome (by simp only [reduceCtorEq, not_false_eq_true])

/-- A reference is resolved, and the rules that wait for it fire in order. -/
theorem fireFor_disciplined {τ : Type} {env : Environment τ} (hrules : env.rules = table)
    (hids : (table.rules.map Rule.id).Nodup)
    (hinvoke : env.InvokeObeys (Under classes fun u v => u.Disciplined table → Tame table u v))
    {c : Candidate} {s : PathState} {e : Event} {className : String}
    (hsettles : Settles classes u.state ref c how s) (hquiet : e.firing? = none)
    (hclass : ∀ p type, how = .fresh p type → className = type)
    (hu : u.state.Coherent classes) (hd : u.Disciplined table) :
    let r := (env.fireFor ref className how.kind how.target).runOn ⟨s, e :: u.journal⟩
    Advanced classes table ref ⟨s, e :: u.journal⟩ r.2 ∧ (r.1 = .ok () →
      r.2.firingsAt ref.origin = (table.waiting ref how).map fun r => (r, how.target)) := by
  obtain ⟨hs, htame, hclause, hstart⟩ := hsettles.tame hquiet hu hd
  have hloop := fireEach_disciplined (w := ⟨s, e :: u.journal⟩) hids hinvoke
    (List.nil_append (table.waiting ref how)).symm hs htame.disciplined hclause hstart
  unfold Environment.fireFor Environment.fireMatching
  rw [hrules, RuleTable.matching_eq_waiting table ref hclass, TraceM.runOn_bind,
    TraceM.runOn_mapError]
  rcases hrun : (env.fireEach ref.origin how.target (table.waiting ref how)).runOn
    ⟨s, e :: u.journal⟩ with ⟨e' | n, v⟩
  · rw [hrun] at hloop
    exact ⟨hloop.1, fun h => absurd h (by simp only [Except.mapError, andThen_error, reduceCtorEq,
      not_false_eq_true])⟩
  · rw [hrun] at hloop
    exact ⟨hloop.1, fun _ => hloop.2 n rfl⟩

/-- Along a path on which rules fire because of resolutions only, they fire in
    order. -/
theorem tame_respects {k : Conduct} (hids : (table.rules.map Rule.id).Nodup)
    (hrules : ∀ t, k.rules t → t = table) (hdirect : ¬ k.direct) :
    Respects k fun u v => u.Disciplined table → Tame table u v where
  toComposes := Tame.composes table
  change := fun hu hchange hd =>
    hd.tame (v := ⟨_, _⟩) (hchange.kept hu).1 hchange.fired rfl hchange.clauses
  told := fun {u e} hu hquiet hd => hd.tame (v := ⟨u.state, e :: u.journal⟩) hu rfl
    (firings_cons u.state hquiet) (List.prefix_refl _)
  resolved := fun {τ} env {u ref c how s e className} henv hinvoke hu href hsettles hquiet
      hclass => by
    have hkept := Environment.settled_obeys (Tolerates.always k.classes k.conditions)
      hinvoke.always (fun _ _ _ _ _ _ _ => trivial) hsettles hquiet className hu
    refine fun _ => ⟨hkept.1, fun hd => ?_⟩
    obtain ⟨hs, htame, -, -⟩ := hsettles.tame hquiet hu hd
    obtain ⟨hadvanced, -⟩ := fireFor_disciplined (hrules env.rules henv) hids hinvoke hsettles
      hquiet hclass hu hd
    refine ⟨htame.clauses.trans hadvanced.clauses, hadvanced.disciplined, fun ref' how' hc' => ?_⟩
    -- A reference that was resolved before is another one.
    have hne : ref'.origin.text ≠ ref.origin.text := by
      intro htext
      obtain ⟨rfl, rfl⟩ := hs.parts.resolve_unique (htame.clauses.subset hc') hsettles.clause htext
      have hsome := hu.parts.condition.resolution?_eq hc'
      rw [hsettles.unresolved] at hsome
      exact absurd hsome (by simp only [reduceCtorEq, not_false_eq_true])
    rw [hadvanced.others ref' how' (htame.clauses.subset hc') hne, htame.settled ref' how' hc']
  direct := fun h => absurd h hdirect

/-- Resolving a reference for the first time, and without a failure, fires all the
    rules that wait for the resolution. -/
theorem Session.Disciplined.fires_all {τ : Type} {env : Environment τ}
    (hclasses : env.classes = classes) (hrules : env.rules = table)
    (hids : (table.rules.map Rule.id).Nodup)
    (hinvoke : env.InvokeObeys (Under classes fun u v => u.Disciplined table → Tame table u v))
    (hu : u.state.Coherent classes) (hd : u.Disciplined table)
    (href : .ref ref ∈ u.state.symbols.symbols)
    (hnone : u.state.condition.resolution? ref.number = none) {c : Candidate} {target : Target}
    (hrun : (env.resolve ref c).runOn u = (.ok target, v)) :
    ∃ how, .resolve ref how ∈ v.state.condition.clauses ∧ how.target = target ∧
      v.firingsAt ref.origin = (table.waiting ref how).map fun r => (r, target) := by
  subst hclasses
  have houtcome := Environment.resolve_outcome hu href c
  generalize (env.resolve ref c).runOn u = r at houtcome hrun
  cases houtcome with
  | known hclause =>
      rw [hu.parts.condition.resolution?_eq hclause] at hnone
      exact absurd hnone (by simp only [reduceCtorEq, not_false_eq_true])
  | refused e => exact absurd (Prod.mk.inj hrun).1 (by simp only [reduceCtorEq, not_false_eq_true])
  | broken e _ => exact absurd (Prod.mk.inj hrun).1 (by simp only [reduceCtorEq, not_false_eq_true])
  | @announced how s e className hsettles hquiet hclass =>
      obtain ⟨-, -, hclause, -⟩ := hsettles.tame hquiet hu hd
      obtain ⟨hadvanced, hall⟩ := fireFor_disciplined hrules hids hinvoke hsettles hquiet hclass
        hu hd
      rcases andThen_eq_ok hrun with ⟨_, w, hfire, hend⟩
      rw [hfire] at hadvanced hall
      obtain ⟨htarget, rfl⟩ := Prod.mk.inj hend
      rw [← Except.ok.inj htarget]
      exact ⟨how, hadvanced.clauses.subset hclause, rfl, hall rfl⟩

/-- A note tells the number of the rule, the origin and the position. -/
theorem Session.Keyed.nodup (h : u.Keyed) :
    (u.firings.map fun f => (f.1.id, f.1.origin.text, f.2.position)).Nodup := by
  refine List.Nodup.of_map (fun x : Nat × String × Int =>
    toString x.1 ++ "|" ++ x.2.1 ++ "|" ++ toString x.2.2) ?_
  have honce := h.once
  rw [h.keys] at honce
  rw [List.map_map]
  exact honce

namespace Session.Disciplined

/-- A rule that has fired has waited for the resolution of a reference, and has
    fired on what the reference was resolved to. -/
theorem waited (h : u.Disciplined table) {f : Rule × Target} (hf : f ∈ u.firings) :
    ∃ ref how, .resolve ref how ∈ u.state.condition.clauses ∧
      f.1.origin.text = ref.origin.text ∧ f.1 ∈ table.waiting ref how ∧ f.2 = how.target := by
  rcases h.justified f hf with ⟨ref, how, hc, htext⟩
  have hmem := (h.ordered ref how hc).subset (mem_firingsAt.2 ⟨hf, htext⟩)
  rcases List.mem_map.1 hmem with ⟨r, hr, rfl⟩
  exact ⟨ref, how, hc, htext, hr, rfl⟩

/-- No more rules have fired than there are: a rule is about one reference, and
    that was resolved once. -/
theorem length_le (h : u.Disciplined table) (hu : u.state.Coherent classes) :
    u.firings.length ≤ table.size := by
  have hfirings : u.firings.Nodup := h.keyed.nodup.of_map
  have hinj : ∀ f ∈ u.firings, ∀ f' ∈ u.firings, f.1 = f'.1 → f = f' := by
    intro f hf f' hf' heq
    rcases h.waited hf with ⟨ref, how, hc, htext, -, htarget⟩
    rcases h.waited hf' with ⟨ref', how', hc', htext', -, htarget'⟩
    have hsame : ref.origin.text = ref'.origin.text := by rw [← htext, heq, htext']
    obtain ⟨-, rfl⟩ := hu.parts.resolve_unique hc hc' hsame
    exact Prod.ext heq (htarget.trans htarget'.symm)
  have hnodup : (u.firings.map Prod.fst).Nodup := hfirings.map_on hinj
  have hsubset : u.firings.map Prod.fst ⊆ table.rules := by
    intro r hr
    rcases List.mem_map.1 hr with ⟨f, hf, rfl⟩
    rcases h.waited hf with ⟨ref, how, -, -, hwaiting, -⟩
    exact (List.mem_filter.1 hwaiting).1
  have hle := (List.subperm_of_subset hnodup hsubset).length_le
  rwa [List.length_map] at hle

end Session.Disciplined

/-- What is known of the firings in a session that follows from resolutions. A
    method that fails leaves its session as it is, so this is known in the midst
    of methods as well. -/
structure FiringOrder (classes : ClassTable) (table : RuleTable) (u : Session) : Prop where
  /-- There are no more firings than rules. -/
  bounded : u.firings.length ≤ table.size
  /-- A rule fires when the reference at its origin is resolved in the way that
      the rule waits for. -/
  waited : ∀ f ∈ u.firings, ∃ ref how, .resolve ref how ∈ u.state.condition.clauses ∧
    f.1.origin.text = ref.origin.text ∧ f.1 ∈ table.waiting ref how ∧ f.2 = how.target
  /-- The rules that wait for a resolution fire in order. -/
  ordered : ∀ ref how, .resolve ref how ∈ u.state.condition.clauses →
    u.firingsAt ref.origin <+: (table.waiting ref how).map fun r => (r, how.target)
  /-- All of them have fired when a reference was resolved without a failure. -/
  complete : ∀ {τ : Type} (env : Environment τ) (ref : RefSymbol) (c : Candidate) (target : Target)
    (v : Session), env.classes = classes → env.rules = table →
    (∀ invoke, env.invoke = some invoke → ∀ method target parameter (w : Session),
      Follows (.underRules classes table False) w ((invoke method target parameter).runOn w).2) →
    .ref ref ∈ u.state.symbols.symbols → u.state.condition.resolution? ref.number = none →
    (env.resolve ref c).runOn u = (.ok target, v) →
    ∃ how, .resolve ref how ∈ v.state.condition.clauses ∧ how.target = target ∧
      v.firingsAt ref.origin = (table.waiting ref how).map fun r => (r, target)

/-- Along a path no rule fires twice on a target at an origin. If rules fire because
    of resolutions only, they fire in order and none is left out. -/
theorem firing_discipline (classes : ClassTable) {specs : List RuleSpec}
    (htable : RuleTable.ofList specs = .ok table) {signature : Signature} {isStatic : Bool}
    {names : List String} {s : PathState}
    (henter : PathState.enter signature isStatic names = .ok s) :
    (∀ direct u, Follows (.underRules classes table direct) ⟨s, []⟩ u →
      (u.firings.map fun f => (f.1.id, f.1.origin.text, f.2.position)).Nodup) ∧
    ∀ u, Follows (.underRules classes table False) ⟨s, []⟩ u → FiringOrder classes table u := by
  have hids := RuleTable.ids_nodup htable
  have hs := PathState.enter_coherent classes henter
  obtain ⟨-, -, hfired⟩ := PathState.enter_blank henter
  have hkeyed : Session.Keyed ⟨s, []⟩ := ⟨hfired, by rw [hfired]; exact List.nodup_nil⟩
  refine ⟨fun direct u hu => ?_, fun u hfollows => ?_⟩
  · have hafter := (hu.under (keyed_respects _) hs).2
    exact (hafter hkeyed).nodup
  · have hstart : Session.Disciplined table ⟨s, []⟩ :=
      ⟨hkeyed, fun f hf => absurd hf List.not_mem_nil, fun _ _ _ => List.nil_prefix⟩
    have hrespects : Respects (.underRules classes table False)
        fun u v => u.Disciplined table → Tame table u v :=
      tame_respects hids (fun t ht => ht) id
    obtain ⟨⟨hu, -⟩, htame⟩ := hfollows.under hrespects hs
    have hd := (htame hstart).disciplined
    exact ⟨hd.length_le hu, fun f hf => hd.waited hf, hd.ordered,
      fun env ref c target v hclasses hrules hinvoke href hnone hrun =>
        hd.fires_all hclasses hrules hids (fun invoke hi method target parameter w =>
          (hinvoke invoke hi method target parameter w).under hrespects) hu href hnone hrun⟩

end PathWitness
