import PathWitness.Proofs.TestCase.Assembly
import PathWitness.Proofs.TestCase.Walk

/-!
# Why a Path Has No Statements

Making the statements of a path can fail in many ways, most of which would mean that
the path condition is not what it should be. For a path that starts at the entry of
a method, and whose conditions are about its own symbols, only two are left, each with
a reason that can be seen in the path condition and the model: a symbol has no value,
or an alias leads to something that was there before the path began. Without such a
reason the statements can be made.

Variables must have names without dots and brackets, so that the text of an origin
shows where it starts. A condition about a symbol that the path has not given out can
start where there is no variable.

## Theorems

* `Context.steady_of_plain`: Names without dots keep lengths with their arrays.
* `walk_classified`: When the statements of a path can be made, and why not.
-/

namespace PathWitness

namespace TestCase

open Setup

variable {classes : ClassTable} {s : PathState}

/-- If variables have names without dots and brackets, the length of an array starts
    where the array starts. -/
theorem steady_of_plain (ctx : Context) (hcoherent : s.Coherent classes)
    (hgrounded : s.Grounded classes) (hnames : ∀ v ∈ s.frame, Origin.isPlain v.name = true) :
    ctx.Steady s := by
  have hplain : ∀ x ∈ s.symbols.symbols, Origin.isPlain x.origin.root = true := by
    intro x hx
    obtain ⟨v, hv, hname⟩ := (hgrounded.symbols x hx).root_name
    rw [hname]
    exact hnames v hv
  intro ref n href hfind
  have hn := SymbolTable.mem_of_find? hfind
  have hroot : n.origin.root = (ref.origin.push .length).root :=
    Origin.root_of_text (hcoherent.parts.table.named _ hn) (hcoherent.parts.table.named _ href)
      (hplain _ hn) (hplain _ href) (SymbolTable.text_of_find? hfind)
  rw [Context.isInitial, Context.isInitial, hroot]
  rfl

/-- An obstacle is never that the path condition is not what it should be. -/
theorem Obstacle.kind_cases {ctx : Context} {clauses : List Clause} {e : CaseError}
    (h : Obstacle ctx clauses e) :
    e.kind ∉ [ErrorKind.arrayLength, .danglingAlias, .unresolved, .unsupportedValue] := by
  cases h <;> simp [CaseError.kind]

/-- The statements of a path that starts at the entry of a method, and whose conditions
    are about its own symbols, can be made if and only if there is no obstacle. Otherwise
    the error is that of an obstacle, so the path condition is never malformed and no
    value is unsupported. -/
theorem walk_classified {signature : Signature} {isStatic : Bool} {parameters : List String}
    {journal : Journal} {u : Session} (initialRoots : List String) (m : Option Model)
    (henter : PathState.enter signature isStatic parameters = .ok s)
    (hfollows : Follows (Conduct.ownSymbols classes) ⟨s, journal⟩ u)
    (hnames : ∀ v ∈ u.state.frame, Origin.isPlain v.name = true) :
    ((∃ st, (walk (contextOf initialRoots u.state m) u.state.condition.clauses).run {}
        = .ok ((), st)) ↔
      ∀ e, ¬ Obstacle (contextOf initialRoots u.state m) u.state.condition.clauses e) ∧
    ∀ e, (walk (contextOf initialRoots u.state m) u.state.condition.clauses).run {} = .error e →
      Obstacle (contextOf initialRoots u.state m) u.state.condition.clauses e ∧
        e.kind ∉ [ErrorKind.arrayLength, .danglingAlias, .unresolved, .unsupportedValue] := by
  obtain ⟨hcoherent, hgrounded⟩ := grounded_of_follows henter hfollows
  have hsteady := steady_of_plain (contextOf initialRoots u.state m) hcoherent hgrounded hnames
  rcases walk_path_assembles hcoherent hgrounded initialRoots m with
    ⟨st, hrun, hst⟩ | ⟨e, hrun, hobstacle⟩
  · refine ⟨⟨fun _ e => hst.unobstructed hcoherent hsteady, fun _ => ⟨st, hrun⟩⟩, fun e he => ?_⟩
    cases hrun.symm.trans he
  · have he := hobstacle hsteady
    refine ⟨⟨fun ⟨st, hst⟩ => ?_, fun hnone => absurd he (hnone e)⟩, fun e' he' => ?_⟩
    · cases hrun.symm.trans hst
    · obtain rfl := Except.error.inj (hrun.symm.trans he')
      exact ⟨he, he.kind_cases⟩

/-- Nested references, a loop and an element of an array, with and without values. -/
theorem walk_classified_sought :
    PathState.enter searchMethod true ["list", "keys"] = .ok searchEntry ∧
      Follows (Conduct.ownSymbols nodeClasses) ⟨searchEntry, []⟩ soughtSession ∧
      (∀ v ∈ soughtSession.state.frame, Origin.isPlain v.name = true) ∧
      (∀ e, ¬ Obstacle (contextOf [] soughtSession.state (some soughtModel))
        soughtSession.state.condition.clauses e) ∧
      Obstacle (contextOf [] soughtSession.state none) soughtSession.state.condition.clauses
        (.skip .noSolution) ∧
      Obstacle (contextOf ["list"] soughtSession.state none) soughtSession.state.condition.clauses
        (.skip .noSolution) := by
  have hnames : ∀ v ∈ soughtSession.state.frame, Origin.isPlain v.name = true := by decide +kernel
  refine ⟨enter_search, soughtSession_follows, hnames,
    (walk_classified [] (some soughtModel) enter_search soughtSession_follows hnames).1.1 ⟨_, rfl⟩,
    ((walk_classified [] none enter_search soughtSession_follows hnames).2 _ rfl).1,
    ((walk_classified ["list"] none enter_search soughtSession_follows hnames).2 _ rfl).1⟩

/-- A number that no variable of the method leads to. -/
def strayNumber : PrimSymbol := ⟨2, .int, ⟨"other", [.field "value"]⟩⟩

/-- The session in which it is positive. -/
def straySession : Session := assumePositive strayNumber ⟨searchEntry, []⟩

/-- A condition need not be about symbols of the path. Then there may be no variable to start
    from, although the model has a value. -/
theorem stray_symbol_unresolved :
    PathState.enter searchMethod true ["list", "keys"] = .ok searchEntry ∧
      Follows (.underRules nodeClasses {} False) ⟨searchEntry, []⟩ straySession ∧
      (∀ v ∈ straySession.state.frame, Origin.isPlain v.name = true) ∧
      Model.Satisfies (Model.empty.insert 2 (.int 1))
        (straySession.state.condition.conditions.map some) ∧
      ∃ e, (walk (contextOf [] straySession.state (some (Model.empty.insert 2 (.int 1))))
          straySession.state.condition.clauses).run {} = .error e ∧ e.kind = .unresolved := by
  refine ⟨enter_search, assumePositive_follows _ (.refl _), by decide +kernel, fun c hc => ?_,
    _, rfl, rfl⟩
  obtain rfl := List.mem_singleton.1 hc
  exact ⟨_, .boolean true, rfl, rfl, rfl⟩

end TestCase

end PathWitness
