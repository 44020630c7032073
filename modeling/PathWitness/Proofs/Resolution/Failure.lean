import PathWitness.Proofs.ClassTable
import PathWitness.Proofs.PathState.Reachable
import PathWitness.Proofs.Rule.Table

/-!
# How Resolving a Reference Fails

A reference is resolved in several steps, and most of them can fail. A resolution to
null or to an object that is there fails before anything is changed, and so does the
expansion to an array, because the symbol of the length is asked for first. So what a
reader expects is that a resolution that fails has left the path as it was, unless it
was a rule that failed.

The expansion to an object is the exception. The object is there and the path
condition names it before its fields are given symbols, and a field can be refused
one: a class may declare a field of the name of an inherited one, with another type,
and the origins of the two read the same. The object stays, with some of its fields,
and the reference stays resolved. There is no other way to fail halfway.

## Main definitions

* `Environment.Triggers`: A rule waits for a resolution and has not fired.
* `Clash`: A field finds its place taken.

## Theorems

* `fireEach_error`: Only a rule that has not fired can fail.
* `Fills.clash`: A field without a symbol finds its place taken.
* `resolve_error_cases`: A resolution that fails has changed nothing, or a field found
  its place taken, or a rule was fired.
* `hidden_field_stays`: An expansion that fails and leaves an object behind.
-/

namespace PathWitness

variable {τ : Type} {env : Environment τ}

/-- A rule waits for the reference to be resolved in this way, and has not fired. -/
def Environment.Triggers (env : Environment τ) (s : PathState) (ref : RefSymbol) (c : Candidate) :
    Prop :=
  ∃ how, c.Yields ref how ∧
    ∃ rule ∈ env.rules.waiting ref how, rule.firingKey ref.origin how.target ∉ s.fired

/-- The reference has a new object, and a field of the object finds its place taken by a
    symbol that cannot stand for it. The symbol was there before, or it stands for a
    field of the same name and of another type. -/
inductive Clash (classes : ClassTable) (s : PathState) (ref : RefSymbol) :
    ResolveError τ → PathState → Prop where
  | field {p : Int} {type : String} {f : FieldDecl} {holder : Symbol} {s' : PathState}
    (hclause : .resolve ref (.fresh p type) ∈ s'.condition.clauses)
    (hf : f ∈ classes.fields type)
    (hholder : s'.symbols.find? (ref.origin.push (.field f.name)) = some holder)
    (hunsuited : holder.suits f.type = false)
    (hcause : holder ∈ s.symbols.symbols ∨
      ∃ g ∈ classes.fields type, g.name = f.name ∧ holder.suits g.type = true) :
    Clash classes s ref
      (.field f.name type (.occupied (ref.origin.push (.field f.name)) holder)) s'

namespace Environment

variable {u v : Session}

/-- Rules that have fired are passed over, so the first that has not is fired. -/
theorem fireEach_error {o : Origin} {target : Target} {rules : List Rule} {e : FireError τ}
    (h : (env.fireEach o target rules).runOn u = (.error e, v)) :
    ∃ rule ∈ rules, rule.firingKey o target ∉ u.state.fired := by
  induction rules with
  | nil => exact absurd (Prod.mk.inj h).1 (by simp)
  | cons rule rest ih =>
      by_cases hfired : u.state.hasFired (rule.firingKey o target) = true
      · unfold fireEach at h
        simp only [TraceM.runOn_bind, TraceM.runOn_state, andThen_ok, hfired, if_true] at h
        rcases ih h with ⟨r, hr, hkey⟩
        exact ⟨r, List.mem_cons_of_mem rule hr, hkey⟩
      · rw [PathState.hasFired, List.contains_iff_mem] at hfired
        exact ⟨rule, List.mem_cons_self, hfired⟩

/-- If the rules that wait for a resolution make it fail, one of them was fired. -/
theorem fireFor_error {ref : RefSymbol} {how : Resolution} {className : String}
    (hclass : ∀ p type, how = .fresh p type → className = type) {e : ResolveError τ}
    (h : (env.fireFor ref className how.kind how.target).runOn u = (.error e, v)) :
    (∃ cause, e = .fire cause) ∧ ∃ rule ∈ env.rules.waiting ref how,
      rule.firingKey ref.origin how.target ∉ u.state.fired := by
  unfold fireFor fireMatching at h
  rw [RuleTable.matching_eq_waiting env.rules ref hclass, TraceM.runOn_bind,
    TraceM.runOn_mapError] at h
  rcases hrun : (env.fireEach ref.origin how.target (env.rules.waiting ref how)).runOn u with
    ⟨cause | n, w⟩
  · rw [hrun] at h
    exact ⟨⟨cause, (Except.error.inj (Prod.mk.inj h).1).symm⟩, fireEach_error hrun⟩
  · rw [hrun] at h
    exact absurd (Prod.mk.inj h).1 (by simp)

end Environment

/-- A field that cannot have a symbol finds its place taken. -/
theorem Fills.clash {classes : ClassTable} {decls : List ClassDecl}
    (hclasses : ClassTable.ofList decls = .ok classes) {s s' : PathState} {ref : RefSymbol}
    (hnamed : ref.origin.isEmpty = false) {p : Int} {type : String}
    (hclause : .resolve ref (.fresh p type) ∈ s'.condition.clauses) {e : ResolveError τ}
    (h : Fills ref.origin type (classes.fields type) s.symbols
      (.error e : Except (ResolveError τ) Unit) s'.symbols) : Clash classes s ref e s' := by
  rcases h.failed e rfl with ⟨f, hf, error, rfl, herror⟩
  have hvalid := (Bool.and_eq_true_iff.1 (ClassTable.isValid_of_mem_fields hclasses hf)).2
  rcases SymbolTable.symbolOf_error (o := ref.origin.push (.field f.name)) hvalid hnamed herror with
    ⟨holder, hholder, rfl, hunsuited⟩
  refine .field hclause hf hholder hunsuited ?_
  rcases h.new holder (SymbolTable.mem_of_find? hholder) with hold | ⟨g, hg, horigin, hsuits⟩
  · exact .inl hold
  · -- The symbol was found because its origin reads like that of the field.
    have hfound := List.find?_some hholder
    have htext : holder.origin.text = (ref.origin.push (.field f.name)).text := beq_iff_eq.1 hfound
    rw [horigin] at htext
    exact .inr ⟨g, hg, Origin.field_of_text_push hnamed htext, hsuits⟩

/-- If a reference of a path cannot be resolved in some way, then the path is as it was
    before, or a field of a new object has found its place taken, or a rule was fired.
    The error tells which. -/
theorem resolve_error_cases {decls : List ClassDecl}
    (hclasses : ClassTable.ofList decls = .ok env.classes) {signature : Signature}
    {isStatic : Bool} {names : List String} {s₀ s : PathState}
    (henter : PathState.enter signature isStatic names = .ok s₀)
    (hreach : Reaches env.classes s₀ s) {ref : RefSymbol} (href : .ref ref ∈ s.symbols.symbols)
    {c : Candidate} {j : Journal} {e : ResolveError τ} {v : Session}
    (hrun : (env.resolve ref c).runOn ⟨s, j⟩ = (.error e, v)) :
    (e.isEarly = true ∧ v = ⟨s, j⟩) ∨
    (Clash env.classes s ref e v.state ∧ v.state ≠ s ∧ v.journal = j) ∨
    ((∃ cause, e = .fire cause) ∧ env.Triggers s ref c) := by
  have hs := (hreach.kept (PathState.enter_coherent env.classes henter)).1
  have houtcome := Environment.resolve_outcome (u := ⟨s, j⟩) hs href c
  generalize (env.resolve ref c).runOn ⟨s, j⟩ = outcome at houtcome hrun
  cases houtcome with
  | known hclause => exact absurd (Prod.mk.inj hrun).1 (by simp)
  | refused e' hearly =>
      rcases Prod.mk.inj hrun with ⟨he, rfl⟩
      rw [← Except.error.inj he]
      exact .inl ⟨hearly, rfl⟩
  | @broken how s' e' hsettles hfills =>
      rcases Prod.mk.inj hrun with ⟨he, rfl⟩
      rw [← Except.error.inj he]
      rcases hfills with ⟨p, type, rfl, hfills⟩
      have hclause := hsettles.clause
      refine .inr (.inl ⟨hfills.clash hclasses (hs.parts.table.named _ href) hclause, ?_, rfl⟩)
      -- The reference was not resolved before.
      intro (hsame : s' = s)
      rw [hsame] at hclause
      have hsome := hs.parts.condition.resolution?_eq hclause
      rw [show s.condition.resolution? ref.number = none from hsettles.unresolved] at hsome
      cases hsome
  | @announced how s' event className hsettles hquiet hclass =>
      refine .inr (.inr ?_)
      rcases hfire : (env.fireFor ref className how.kind how.target).runOn ⟨s', event :: j⟩ with
        ⟨e' | _, w⟩
      · rw [hfire] at hrun
        rcases Environment.fireFor_error hclass hfire with ⟨hcause, rule, hrule, hkey⟩
        rw [← Except.error.inj (Prod.mk.inj hrun).1]
        rw [(hsettles.changes fun _ _ => True).fired] at hkey
        exact ⟨hcause, how, hsettles.yields, rule, hrule, hkey⟩
      · rw [hfire] at hrun
        exact absurd (Prod.mk.inj hrun).1 (by simp)

/-- A class that declares a field of the name of an inherited one. -/
def hidingDecls : List ClassDecl :=
  [⟨"Shape", "", false, [⟨"size", "I"⟩]⟩, ⟨"Square", "Shape", false, [⟨"size", "J"⟩]⟩]

/-- Resolves references to these classes without any rules. -/
def hidingEnvironment : Environment Unit where
  classes := ⟨[⟨"Shape", rootClass, false, [⟨"size", "I"⟩]⟩,
    ⟨"Square", "Shape", false, [⟨"size", "J"⟩]⟩]⟩

/-- A method that is given a shape. -/
def shapeMethod : Signature := ⟨"Drawing", "(LShape;)V", "add"⟩

/-- The shape as the method is given it. -/
def givenShape : RefSymbol := ⟨0, "LShape;", .ofRoot "shape"⟩

/-- The state at the entry of the method. -/
def shapeEntry : PathState where
  signature := shapeMethod
  isStatic := true
  frame := [⟨0, "shape", "LShape;", .ref givenShape⟩]
  symbols := ⟨[.ref givenShape]⟩

/-- The shape is to be a square. -/
def squareAttempt : Except (ResolveError Unit) Target × Session :=
  (hidingEnvironment.resolve givenShape (.expand "Square")).runOn ⟨shapeEntry, []⟩

theorem ofList_hiding : ClassTable.ofList hidingDecls = .ok hidingEnvironment.classes := by
  rfl

theorem enter_shape : PathState.enter shapeMethod true ["shape"] = .ok shapeEntry := by
  have hparameters : Descriptor.parameters shapeMethod.descriptor = .ok [.typed "LShape;"] := by cbv
  have hresult : Descriptor.result shapeMethod.descriptor = .ok "V" := by cbv
  rw [PathState.enter, hparameters, hresult]
  rfl

theorem squareAttempt_fails : ∃ e, squareAttempt = (.error e, squareAttempt.2) := by
  have hfails : squareAttempt.1.toOption.isNone = true := by decide +kernel
  cases hattempt : squareAttempt.1 with
  | error e => exact ⟨e, Prod.ext hattempt rfl⟩
  | ok target => simp [hattempt, Except.toOption] at hfails

/-- The field of the square finds its place taken by that of the shape. -/
theorem resolve_error_cases_square :
    ClassTable.ofList hidingDecls = .ok hidingEnvironment.classes ∧
    PathState.enter shapeMethod true ["shape"] = .ok shapeEntry ∧
    ∃ e, squareAttempt = (.error e, squareAttempt.2) ∧
      Clash hidingEnvironment.classes shapeEntry givenShape e squareAttempt.2.state := by
  rcases squareAttempt_fails with ⟨e, he⟩
  have hsize : squareAttempt.2.state.heap.size = 1 := by decide +kernel
  refine ⟨ofList_hiding, enter_shape, e, he, ?_⟩
  rcases resolve_error_cases ofList_hiding enter_shape (.refl _) List.mem_cons_self he with
    ⟨-, hsame⟩ | ⟨hclash, -⟩ | ⟨-, how, -, rule, hrule, -⟩
  · rw [hsame] at hsize
    exact absurd hsize (by decide)
  · exact hclash
  · exact absurd hrule List.not_mem_nil

/-- The square is not made, and no rule has anything to do with it. But the path has an
    object now, the reference is resolved to it, and the inherited field has a symbol. -/
theorem hidden_field_stays :
    ClassTable.ofList hidingDecls = .ok hidingEnvironment.classes ∧
    PathState.enter shapeMethod true ["shape"] = .ok shapeEntry ∧
    shapeEntry.status = .active ∧ shapeEntry.condition.resolution? givenShape.number = none ∧
    hidingEnvironment.rules.rules = [] ∧ (∃ e, squareAttempt = (.error e, squareAttempt.2)) ∧
    squareAttempt.2.state.condition.resolution? givenShape.number
      = some (givenShape, .fresh 1 "Square") ∧
    squareAttempt.2.state.heap.size = shapeEntry.heap.size + 1 ∧
    squareAttempt.2.state.symbols.size = shapeEntry.symbols.size + 1 := by
  refine ⟨ofList_hiding, enter_shape, rfl, rfl, rfl, squareAttempt_fails, ?_, ?_, ?_⟩
  all_goals decide +kernel

end PathWitness
