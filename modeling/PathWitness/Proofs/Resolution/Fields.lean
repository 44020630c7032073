import PathWitness.Proofs.ClassTable
import PathWitness.Proofs.Origin
import PathWitness.Proofs.Resolution.Stable

/-!
# Fields of Expanded References

When a reference is expanded to an object, every field of the class gets a slot of the
object and a symbol in it. Scripts and rules do not know about slots. They name a
field by a text, which is the text of the reference, a dot and the name of the field,
and what they get is found by reading the text and walking through the heap.

The slot is written under the name of the field, and the walk looks for it there, if
the text is read as a field. The word `length` is not: it is read as the length of an
array, which an object of a class does not have. So a field of that name has a slot
and a symbol that cannot be reached by its own text. All others can.

Objects stay where they are along a path, and slots keep what they hold, so this goes
on when rules fire and when the path is continued.

## Theorems

* `addFields_keys`: All fields of an object that is expanded have slots.
* `heap_respects`: Objects stay and keep what they hold along a path.
* `lookup_push`, `lookup_push_length`: Reading one more step.
* `symbol_of_slot`: What a slot holds.
* `expanded_along`: The object that a reference was expanded to, later on the path.
* `field_found_iff`: A field is found at its text unless it is named `length`.
-/

namespace PathWitness

theorem HeapObject.get_field {o : HeapObject} {name : String} {x : Option Value}
    (hslot : o.slot? name = some x) : o.get (.field name) = .ok x :=
  HeapObject.get_of_slot ⟨rfl, fun i hi => by cases hi⟩ hslot

/-- An object that reads like another has its slots. -/
theorem HeapObject.Extends.slot {o o' : HeapObject} (h : o.Extends o') {name : String}
    (hslot : (o.slot? name).isSome = true) : (o'.slot? name).isSome = true := by
  obtain ⟨x, hx⟩ := Option.isSome_iff_exists.1 hslot
  rcases HeapObject.get_ok_cases (h.get (HeapObject.get_field hx)) with
    ⟨hlength, -⟩ | ⟨key, hkey, hslot'⟩
  · cases hlength
  · rw [Option.some.inj hkey.1, hslot']
    rfl

/-- Along a path objects stay where they are and keep what they hold. -/
theorem heap_respects (k : Conduct) :
    Respects k fun u v => u.state.heap.Extends v.state.heap :=
  Respects.ofFired ⟨⟨fun _ => .refl _, fun h h' => h.trans h'⟩, fun _ hchange => hchange.heap,
    fun _ _ => .refl _⟩ fun _ _ _ _ _ _ _ _ _ => .refl _

namespace Environment

variable {τ : Type} {env : Environment τ} {u v : Session} {ref : RefSymbol} {p : Int}

/-- Rules that fire leave objects as they are. -/
theorem fireFor_heap {k : Conduct} (hinvoke : env.InvokeObeys (Follows k))
    (hu : u.state.Coherent k.classes) (ref : RefSymbol) (className : String) (kind : TriggerKind)
    (target : Target) : u.state.heap.Extends
      ((env.fireFor ref className kind target).runOn u).2.state.heap :=
  (fireFor_obeys (heap_respects k).toComposes
    (fun invoke hi method target parameter w =>
      (hinvoke invoke hi method target parameter w).under (heap_respects k))
    (fun _ _ _ _ _ _ _ => .refl _) ref className kind target hu).2

/-- Fields that were added have slots, and slots that were there stay. -/
theorem addFields_keys {origin : Origin} {className : String} {fields : List FieldDecl}
    {o : HeapObject} (hobject : u.state.heap.get? p = some o)
    (hrun : (addFields origin className p fields : TraceM (ResolveError τ) Unit).runOn u
      = (.ok (), v)) :
    ∃ o', v.state.heap.get? p = some o' ∧
      (∀ key, (o.slot? key).isSome = true → (o'.slot? key).isSome = true) ∧
      ∀ f ∈ fields, (o'.slot? f.name).isSome = true := by
  induction fields generalizing u o with
  | nil =>
      rw [← (Prod.mk.inj hrun).2]
      exact ⟨o, hobject, fun key hkey => hkey, fun f hf => absurd hf List.not_mem_nil⟩
  | cons f rest ih =>
      unfold addFields at hrun
      simp only [TraceM.runOn_bind, TraceM.runOn_state, andThen_ok, TraceM.runOn_ofExcept] at hrun
      cases hsymbol : PathState.symbolOf u.state.symbols f.type (origin.push (.field f.name)) with
      | error e =>
          rw [hsymbol] at hrun
          cases hrun
      | ok r =>
          have hset : o.set (.field f.name) (some (.ofSymbol r.1))
              = .ok { o with slots := putSlot f.name (some (.ofSymbol r.1)) o.slots } := rfl
          rw [hsymbol] at hrun
          simp only [Except.mapError, andThen_ok, Heap.write_eq hobject hset,
            TraceM.runOn_setState] at hrun
          obtain ⟨o', ho', hkept, hfields⟩ :=
            ih (by rw [Heap.get?_replace hobject, if_pos rfl]) hrun
          have hself : (putSlot f.name (some (Value.ofSymbol r.1)) o.slots).lookup f.name
              = some (some (.ofSymbol r.1)) := lookup_putSlot_self
          refine ⟨o', ho', fun key hkey => hkept key ?_, fun g hg => ?_⟩
          · -- A slot of the same name is written again.
            by_cases hk : key = f.name
            · rw [hk, HeapObject.slot?, hself]
              rfl
            · rw [HeapObject.slot?, lookup_putSlot_other hk]
              exact hkey
          · rcases List.mem_cons.1 hg with rfl | hg
            · refine hkept g.name ?_
              rw [HeapObject.slot?, hself]
              rfl
            · exact hfields g hg

/-- The object that a reference is expanded to has slots for all fields of its class. -/
theorem expandObject_fields {className : String}
    (hrun : (env.expandObject ref className).runOn u = (.ok p, v)) :
    ∃ o, v.state.heap.get? p = some o ∧
      ∀ f ∈ env.classes.fields className, (o.slot? f.name).isSome = true := by
  unfold expandObject at hrun
  simp only [TraceM.runOn_bind, TraceM.runOn_state, andThen_ok, TraceM.runOn_setState,
    TraceM.runOn_pure] at hrun
  obtain ⟨_, w, hcondition, hfields⟩ := andThen_eq_ok hrun
  obtain ⟨_, w', hadded, hend⟩ := andThen_eq_ok hfields
  obtain ⟨hp, rfl⟩ := Prod.mk.inj hend
  -- The path condition is told about the object, which does not touch the heap.
  have hheap : w.state.heap
      = (u.state.heap.allocate ⟨className, ref.origin, none, []⟩).2 := by
    rw [TraceM.runOn_onCondition] at hcondition
    rw [← (Prod.mk.inj hcondition).2]
  obtain ⟨o, ho, -, hslots⟩ := addFields_keys (o := ⟨className, ref.origin, none, []⟩)
    (by rw [hheap]; exact Heap.get?_allocate.2 (.inr ⟨rfl, rfl⟩)) hadded
  rw [← Except.ok.inj hp]
  exact ⟨o, ho, hslots⟩

/-- A reference that was expanded to an object, and the rules that have fired since. -/
theorem resolve_expand_ok {className type : String} {target : Target}
    (hnone : u.state.condition.resolution? ref.number = none)
    (htype : (if className = "" then staticClass ref else className) = type)
    (harray : Descriptor.isArray type = false)
    (hrun : (env.resolve ref (.expand className)).runOn u = (.ok target, v)) :
    env.classes.isSubclass type (staticClass ref) = true ∧
    ∃ p w e, (env.expandObject ref type).runOn u = (.ok p, w) ∧ target = .ofPosition p ∧
      v = ((env.fireFor ref type .expands target).runOn ⟨w.state, e :: w.journal⟩).2 := by
  unfold resolve at hrun
  simp only [TraceM.runOn_bind, TraceM.runOn_state, andThen_ok, TraceM.runOn_ofExcept, hnone]
    at hrun
  obtain ⟨_, u₁, hreadable, hrun⟩ := andThen_eq_ok hrun
  obtain ⟨-, rfl⟩ := Prod.mk.inj hreadable
  obtain ⟨_, u₂, hactive, hrun⟩ := andThen_eq_ok hrun
  obtain ⟨-, rfl⟩ := Prod.mk.inj hactive
  unfold resolveExpand at hrun
  rw [htype] at hrun
  by_cases hsub : env.classes.isSubclass type (staticClass ref) = true
  · by_cases habstract : env.classes.isAbstract type = true
    · simp only [hsub, habstract, Bool.not_true, Bool.false_eq_true, if_false, if_true] at hrun
      cases hrun
    · simp only [hsub, habstract, harray, Bool.not_true, Bool.false_eq_true, if_false] at hrun
      rw [TraceM.runOn_bind] at hrun
      obtain ⟨p, w, hobject, hrun⟩ := andThen_eq_ok hrun
      rw [runOn_announce] at hrun
      obtain ⟨_, w', hfire, hend⟩ := andThen_eq_ok hrun
      obtain ⟨htarget, rfl⟩ := Prod.mk.inj hend
      have htarget' : target = .ofPosition p := (Except.ok.inj htarget).symm
      refine ⟨hsub, p, w, .expanded ref p type, hobject, htarget', ?_⟩
      rw [htarget', hfire]
  · simp only [hsub, Bool.not_false, if_true] at hrun
    cases hrun

end Environment

namespace PathState

variable {classes : ClassTable} {s : PathState} {ref : RefSymbol} {p : Int} {type : String}
  {o : HeapObject}

/-- Reading one more step behind a reference that was expanded looks at the object, and
    nothing else. -/
theorem lookup_push (h : s.Coherent classes)
    (hclause : .resolve ref (.fresh p type) ∈ s.condition.clauses)
    (hobject : s.heap.get? p = some o) (a : Accessor) :
    (∃ x, o.get a = .ok x ∧ (lookup (ref.origin.push a)).runOn s = (.ok x, s)) ∨
      ∃ fault, o.get a = .error fault ∧
        (lookup (ref.origin.push a)).runOn s = (fill p o a).runOn s := by
  obtain ⟨v, hbound, hwalk⟩ := walkFrom_symbol h (h.parts.references ref _ hclause)
  have hlookup : (lookup (ref.origin.push a)).runOn s =
      (walkFrom 0 (some (.ofSymbol v.value)) (ref.origin.steps ++ [a])).runOn s := by
    unfold lookup
    simp only [PathM.runOn_bind, PathM.runOn_get, andThen_ok, PathM.runOn_ofExcept,
      h.checkReadable, Except.mapError]
    rw [show s.binding? (ref.origin.push a).root = some v from hbound]
    rfl
  -- The walk comes to the reference, which leads to the object.
  rw [hlookup, walkFrom_append, show (walkFrom 0 (some (.ofSymbol v.value)) ref.origin.steps).runOn
    s = _ from hwalk, andThen_ok, runOn_walkFrom_cons, follow_expanded h hclause hobject]
  cases hget : o.get a with
  | ok x =>
      simp only [hget]
      exact .inl ⟨x, rfl, rfl⟩
  | error fault =>
      simp only [hget]
      refine .inr ⟨fault, rfl, ?_⟩
      rcases (fill p o a).runOn s with ⟨e | x, s'⟩
      · rfl
      · rfl

/-- An object of a class has no length. -/
theorem lookup_push_length (h : s.Coherent classes)
    (hclause : .resolve ref (.fresh p type) ∈ s.condition.clauses)
    (hobject : s.heap.get? p = some o) (harray : o.isArray = false) :
    ∃ e, (lookup (ref.origin.push .length)).runOn s = (.error e, s) := by
  have hget : o.get .length = .error .missing := by
    simp only [HeapObject.get, harray]
  rcases lookup_push h hclause hobject .length with ⟨x, hx, -⟩ | ⟨fault, -, hrun⟩
  · rw [hget] at hx
    cases hx
  · refine ⟨.heap (.slot .missing .length p o.type), ?_⟩
    rw [hrun]
    unfold fill
    simp only [PathM.runOn_bind, PathM.runOn_get, andThen_ok, canFill, Bool.not_false, if_true,
      PathM.runOn_throw, andThen_error]

/-- A slot of an object that was created for a reference holds the symbol whose origin
    reads like the reference and the field. -/
theorem symbol_of_slot (h : s.Coherent classes)
    (hclause : .resolve ref (.fresh p type) ∈ s.condition.clauses)
    (hobject : s.heap.get? p = some o) (harray : o.isArray = false) {name : String}
    (hslot : (o.slot? name).isSome = true) :
    ∃ x, o.slot? name = some (some (.ofSymbol x)) ∧
      x.origin.text = ref.origin.text ++ "." ++ name := by
  obtain ⟨w, hw⟩ := Option.isSome_iff_exists.1 hslot
  obtain ⟨x, a, rfl, hnames, hfind⟩ := (h.parts.contents p o hobject).slots name w hw
  refine ⟨x, hw, ?_⟩
  obtain ⟨o', ho', -, horigin, -⟩ := h.parts.clauses ref _ hclause
  rw [hobject] at ho'
  rw [Environment.eq_field_of_names harray hnames, Option.some.inj ho', horigin] at hfind
  have hnamed : ref.origin.isEmpty = false :=
    h.parts.table.named _ (h.parts.references ref _ hclause)
  have htext := List.find?_some hfind
  rw [beq_iff_eq.1 htext, Origin.text_push hnamed, String.append_assoc]
  rfl

end PathState

section Expanded

variable {τ : Type} {env : Environment τ} {k : Conduct} {u v w : Session} {ref : RefSymbol}
  {className type : String} {target : Target}

/-- A reference that was expanded to an object of a class leads to that object from then
    on, and the object has slots for all fields of the class. -/
theorem expanded_along (hu : u.state.Coherent k.classes)
    (href : .ref ref ∈ u.state.symbols.symbols) (hclasses : env.classes = k.classes)
    (hinvoke : env.InvokeObeys (Follows k))
    (hnone : u.state.condition.resolution? ref.number = none)
    (htype : (if className = "" then Environment.staticClass ref else className) = type)
    (harray : Descriptor.isArray type = false)
    (hrun : (env.resolve ref (.expand className)).runOn u = (.ok target, v))
    (hw : Follows k v w) (hv : v.state.Coherent k.classes) :
    ∃ p o, target = .object p ∧ w.state.heap.get? p = some o ∧ o.isArray = false ∧
      .resolve ref (.fresh p type) ∈ w.state.condition.clauses ∧
      ∀ f ∈ k.classes.fields type, (o.slot? f.name).isSome = true := by
  obtain ⟨hsub, p, v₁, e, hobject, rfl, hfire⟩ :=
    Environment.resolve_expand_ok hnone htype harray hrun
  obtain ⟨o₁, ho₁, hslots⟩ := Environment.expandObject_fields hobject
  obtain ⟨s, hcases, hchanges, hclauses⟩ := Environment.expandObject_cases env (hclasses ▸ hu) href
    hsub hnone harray
  -- The expansion has succeeded, so it has made the object behind all others.
  obtain ⟨rfl, rfl⟩ : u.state.heap.size + 1 = p ∧ ⟨s, u.journal⟩ = v₁ := by
    rcases hcases with hok | ⟨e', hfailed, -⟩
    · rw [hok] at hobject
      obtain ⟨hp, hv₁⟩ := Prod.mk.inj hobject
      exact ⟨Except.ok.inj hp, hv₁⟩
    · rw [hfailed] at hobject
      cases hobject
  have hs : s.Coherent k.classes := hclasses ▸ ((hchanges fun _ _ => True).kept (hclasses ▸ hu)).1
  have hclause : .resolve ref (.fresh (u.state.heap.size + 1) type) ∈ s.condition.clauses := by
    rw [hclauses]
    exact List.mem_append_right _ List.mem_cons_self
  -- Rules fire, and the path goes on.
  have hheap : s.heap.Extends w.state.heap := by
    have hfired := Environment.fireFor_heap (u := ⟨s, e :: u.journal⟩) hinvoke hs ref type .expands
      (.ofPosition (u.state.heap.size + 1))
    rw [← hfire] at hfired
    exact hfired.trans (hw.under (heap_respects k) hv).2
  have hclause' : .resolve ref (.fresh (u.state.heap.size + 1) type)
      ∈ w.state.condition.clauses := by
    have hfired := Environment.fireFor_clauses (w := ⟨s, e :: u.journal⟩) hinvoke hs ref type
      .expands (.ofPosition (u.state.heap.size + 1))
    rw [← hfire] at hfired
    exact (hw.onward hv).clauses.subset (hfired.subset hclause)
  obtain ⟨o, ho, hext⟩ := hheap _ o₁ ho₁
  obtain ⟨o', ho', htype', -⟩ := (hw.onward hv).coherent.parts.clauses ref _ hclause'
  rw [ho] at ho'
  refine ⟨u.state.heap.size + 1, o, Target.ofPosition_of_pos (Heap.pos_of_get? ho).1, ho, ?_,
    hclause', fun f hf => hext.slot (hslots f (hclasses ▸ hf))⟩
  rw [HeapObject.isArray, Option.some.inj ho', htype']
  exact harray

/-- After a reference was expanded to an object of a class, every field of the class has
    a slot of that object, which holds a symbol whose origin reads like the text of the
    reference, a dot and the name of the field. That text can be read, and the symbol is
    what is found there, now and along the path, exactly if the name is not `length`. -/
theorem field_found_iff {decls : List ClassDecl}
    (haccepted : ClassTable.ofList decls = .ok k.classes)
    (hplain : ∀ d ∈ k.classes.classes, ∀ f ∈ d.fields, Origin.isPlain f.name = true)
    {signature : Signature} {isStatic : Bool} {names : List String} {s : PathState}
    (henter : PathState.enter signature isStatic names = .ok s) (hu : Follows k ⟨s, []⟩ u)
    (href : .ref ref ∈ u.state.symbols.symbols)
    (hnone : u.state.condition.resolution? ref.number = none)
    (hparse : Origin.parse ref.origin.text = .ok ref.origin) (hclasses : env.classes = k.classes)
    (hrules : k.rules env.rules) (hinvoke : env.InvokeObeys (Follows k))
    (htype : (if className = "" then Environment.staticClass ref else className) = type)
    (harray : Descriptor.isArray type = false)
    (hrun : (env.resolve ref (.expand className)).runOn u = (.ok target, v))
    (hw : Follows k v w) :
    ∃ p o, target = .object p ∧ w.state.heap.get? p = some o ∧
      ∀ f ∈ k.classes.fields type, ∃ x a, o.slot? f.name = some (some (.ofSymbol x)) ∧
        x.origin.text = ref.origin.text ++ "." ++ f.name ∧
        Origin.parse (ref.origin.text ++ "." ++ f.name) = .ok a ∧
        ((PathState.lookup a).runOn w.state = (.ok (some (.ofSymbol x)), w.state) ↔
          f.name ≠ "length") := by
  have hu' := (hu.onward (PathState.enter_coherent k.classes henter)).coherent
  have hresolve := Follows.resolve env ref (.expand className) (.refl u) (.symbol href) (.refl u)
    hclasses hrules hinvoke
  rw [hrun] at hresolve
  have hv := (hresolve.onward hu').coherent
  obtain ⟨p, o, htarget, ho, hclass, hclause, hslots⟩ :=
    expanded_along hu' href hclasses hinvoke hnone htype harray hrun hw hv
  have hw' := (hw.onward hv).coherent
  refine ⟨p, o, htarget, ho, fun f hf => ?_⟩
  obtain ⟨x, hslot, htext⟩ := PathState.symbol_of_slot hw' hclause ho hclass (hslots f hf)
  obtain ⟨d, hd, hfd⟩ := ClassTable.mem_fields hf
  have hname : f.name ≠ "" :=
    bne_iff_ne.1 (Bool.and_eq_true_iff.1 (ClassTable.isValid_of_mem_fields haccepted hf)).1
  have hread := Origin.parse_append_name hparse hname (hplain d hd f hfd)
  refine ⟨x, _, hslot, htext, hread, ?_⟩
  unfold Accessor.ofName
  by_cases hlength : f.name = "length"
  · rw [if_pos hlength]
    obtain ⟨e, he⟩ := PathState.lookup_push_length hw' hclause ho hclass
    rw [he]
    simp [hlength]
  · rw [if_neg hlength]
    have hget := HeapObject.get_field hslot
    rcases PathState.lookup_push hw' hclause ho (.field f.name) with ⟨y, hy, hlookup⟩ | ⟨e, he, -⟩
    · rw [hget] at hy
      rw [hlookup, ← Except.ok.inj hy]
      simp [hlength]
    · rw [hget] at he
      cases he

end Expanded

/-- The list was expanded, and a rule has made it a loop. The value of its first node is
    found at the text of the list, a dot and the name. -/
theorem field_found_iff_node :
    ClassTable.ofList [⟨"Node", "", false, [⟨"next", "LNode;"⟩, ⟨"value", "I"⟩]⟩]
      = .ok nodeClasses ∧
    PathState.enter searchMethod true ["list", "keys"] = .ok searchEntry ∧
    Origin.parse (Origin.ofRoot "list").text = .ok (.ofRoot "list") ∧
    ∃ x a, x.origin.text = (Origin.ofRoot "list").text ++ "." ++ "value" ∧
      Origin.parse ((Origin.ofRoot "list").text ++ "." ++ "value") = .ok a ∧
      (PathState.lookup a).runOn watchedSession.state
        = (.ok (some (.ofSymbol x)), watchedSession.state) := by
  have haccepted : ClassTable.ofList [⟨"Node", "", false, [⟨"next", "LNode;"⟩, ⟨"value", "I"⟩]⟩]
      = .ok nodeClasses := rfl
  have hparse : Origin.parse (Origin.ofRoot "list").text = .ok (.ofRoot "list") :=
    Origin.parse_eq_ok_iff.2 ⟨by decide, by decide, [], by decide, .done⟩
  have hfield : ⟨"value", "I"⟩ ∈ nodeClasses.fields "Node" := by decide
  obtain ⟨p, o, -, -, hfields⟩ := @field_found_iff Unit watchEnvironment
    (.underRules nodeClasses watchTable False) ⟨searchEntry, []⟩ watchedSession watchedSession
    ⟨0, "LNode;", .ofRoot "list"⟩ "" "Node" (.object 1) _ haccepted (by decide) _ _ _ _
    enter_search (.refl _) (by decide) rfl hparse rfl rfl (watchEnvironment_follows rfl rfl)
    (by decide) (by decide) watchEnvironment_resolves (.refl _)
  obtain ⟨x, a, -, htext, hread, hfound⟩ := hfields _ hfield
  exact ⟨haccepted, enter_search, hparse, x, a, htext, hread, hfound.2 (by decide)⟩

/-- Resolves references to buffers, which have a field for their length. -/
def bufferEnvironment : Environment Empty where
  classes := ⟨[⟨"Buffer", rootClass, false, [⟨"length", "I"⟩]⟩]⟩

/-- A method that is given a buffer. -/
def bufferMethod : Signature := ⟨"Channel", "(LBuffer;)V", "send"⟩

def givenBuffer : RefSymbol := ⟨0, "LBuffer;", .ofRoot "buffer"⟩

/-- The state at the entry of the method. -/
def bufferEntry : PathState where
  signature := bufferMethod
  isStatic := true
  frame := [⟨0, "buffer", "LBuffer;", .ref givenBuffer⟩]
  symbols := ⟨[.ref givenBuffer]⟩

/-- The buffer is a new object. -/
def bufferAttempt : Except (ResolveError Empty) Target × Session :=
  (bufferEnvironment.resolve givenBuffer (.expand "Buffer")).runOn ⟨bufferEntry, []⟩

theorem enter_buffer : PathState.enter bufferMethod true ["buffer"] = .ok bufferEntry := by
  have hparameters : Descriptor.parameters bufferMethod.descriptor = .ok [.typed "LBuffer;"] := by
    cbv
  have hresult : Descriptor.result bufferMethod.descriptor = .ok "V" := by cbv
  rw [PathState.enter, hparameters, hresult]
  rfl

/-- The length of the buffer has a slot and a symbol, but nothing is found at the text of
    the symbol. -/
theorem length_field_not_found :
    ClassTable.ofList [⟨"Buffer", "", false, [⟨"length", "I"⟩]⟩] = .ok bufferEnvironment.classes ∧
    PathState.enter bufferMethod true ["buffer"] = .ok bufferEntry ∧
    Origin.parse givenBuffer.origin.text = .ok givenBuffer.origin ∧
    bufferAttempt.1 = .ok (.object 1) ∧
    ⟨"length", "I"⟩ ∈ bufferEnvironment.classes.fields "Buffer" ∧
    (bufferAttempt.2.state.heap.get? 1).map (·.slot? "length")
      = some (some (some (.ofSymbol (.prim ⟨1, .int, ⟨"buffer", [.field "length"]⟩⟩)))) ∧
    Origin.parse (givenBuffer.origin.text ++ "." ++ "length") = .ok ⟨"buffer", [.length]⟩ ∧
    ∃ e, ((PathState.lookup ⟨"buffer", [.length]⟩).runOn bufferAttempt.2.state).1 = .error e ∧
      e.kind = .noSlot := by
  have hparse : Origin.parse givenBuffer.origin.text = .ok givenBuffer.origin :=
    Origin.parse_eq_ok_iff.2 ⟨by decide, by decide, [], by decide, .done⟩
  refine ⟨rfl, enter_buffer, hparse, rfl, by decide, rfl, ?_, ?_⟩
  · exact Origin.parse_append_name hparse (by decide) (by decide)
  · exact ⟨.heap (.slot .missing .length 1 "Buffer"), rfl, rfl⟩

end PathWitness
