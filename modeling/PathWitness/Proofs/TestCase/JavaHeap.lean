import PathWitness.ClassTable
import PathWitness.Proofs.Computation
import PathWitness.TestCase.Setup

/-!
# What the Statements of a Test Do

Statements that prepare a call are run on local variables and a heap. A new
object has a slot for every field of its class, a new array one for every
element, and all of them hold null or zero. Casts are no-ops. Reflective chains
are walked as the two functions at the top of every test class walk them, which
take a text that starts with a bracket for an index.

Everything that can go wrong is an error here: a variable that is not declared or
declared twice, a step from null, a field that the class does not have, an index
out of bounds, a negative length.

Values are read and written at places. A step from an object leads to a place
after its checks, and what the checks depend on is the form of the object alone,
which no write changes. So a write is described by three facts: the place holds
the new value, all others hold what they held, and all objects keep their form.

## Main definitions

* `JavaValue`, `JavaObject`, `JavaState`: Values, objects, and the state of a run.
* `Place`: A variable, or a slot of an object.
* `JavaState.locate`: The place that a step from a value leads to.
* `Source.eval`, `Statement.exec`, `runStatements`: What statements do.
* `JavaState.readAt`: The value at an origin.
* `JavaObject.form`: What writes leave as it is.

## Theorems

* `get?_put_self`, `get?_put_other`, `formAt_put`: A write.
* `get?_allocate`, `formAt_allocate`: A new object.
* `locate_field`, `locate_element`: Steps that pass their checks.
-/

namespace PathWitness

namespace TestCase

/-- A value of a running test. -/
inductive JavaValue where
  | null
  | const (c : Const)
  /-- The object at an address. -/
  | object (address : Nat)
  deriving Repr, DecidableEq

/-- An object of a running test. -/
inductive JavaObject where
  /-- An object of a class, with its fields by name. -/
  | ofClass (className : String) (fields : List (String × JavaValue))
  /-- An array, with its elements. -/
  | ofArray (type : String) (elements : List JavaValue)
  deriving Repr, DecidableEq

/-- The state of a running test. -/
structure JavaState where
  /-- The local variables, the latest first. -/
  locals : List (String × JavaValue) := []
  /-- The objects by address. -/
  heap : List JavaObject := []
  deriving Repr, DecidableEq

/-- What can go wrong when a test runs. -/
inductive JavaError where
  /-- A variable is used before it is declared. -/
  | undeclared (name : String)
  /-- A variable is declared twice. -/
  | redeclared (name : String)
  /-- A step is taken from null. -/
  | nullDereference
  /-- An object does not have a field. -/
  | noSuchField (className name : String)
  /-- An array does not have an element. -/
  | outOfBounds (index : Int)
  /-- An array cannot have this length. -/
  | badLength (value : JavaValue)
  /-- A step is taken from a value that has no such steps. -/
  | badStep
  deriving Repr, DecidableEq

/-- Where a value is: in a local variable, a field or an element. -/
inductive Place where
  | binding (name : String)
  | field (address : Nat) (name : String)
  | element (address index : Nat)
  deriving Repr, DecidableEq

/-- The value of a slot that nothing was written to. -/
def initialValue (type : String) : JavaValue :=
  match Prim.ofDescriptor? type with
  | some p => .const (.zero p)
  | none => .null

/-- A new object of a class. -/
def JavaObject.new (classes : ClassTable) (className : String) : JavaObject :=
  .ofClass className ((classes.fields className).map fun f => (f.name, initialValue f.type))

/-- A new array. -/
def JavaObject.newArray (type : String) (length : Nat) : JavaObject :=
  let member := match Descriptor.member type with
    | .ok d => initialValue d
    | .error _ => .null
  .ofArray type (List.replicate length member)

/-- What a field of an object holds. -/
def JavaObject.field? (name : String) : JavaObject → Option JavaValue
  | ofClass _ fields => fields.lookup name
  | ofArray _ _ => none

/-- What an element of an array holds. -/
def JavaObject.element? (i : Nat) : JavaObject → Option JavaValue
  | ofClass _ _ => none
  | ofArray _ elements => elements[i]?

/-- An object with another value in a field. -/
def JavaObject.setField (name : String) (v : JavaValue) : JavaObject → JavaObject
  | ofClass c fields => ofClass c (fields.map fun e => if e.1 = name then (e.1, v) else e)
  | ofArray type elements => ofArray type elements

/-- An object with another value in an element. -/
def JavaObject.setElement (i : Nat) (v : JavaValue) : JavaObject → JavaObject
  | ofClass c fields => ofClass c fields
  | ofArray type elements => ofArray type (elements.set i v)

namespace JavaState

/-- What a place holds. -/
def get? (j : JavaState) : Place → Option JavaValue
  | .binding name => j.locals.lookup name
  | .field a name => j.heap[a]?.bind (JavaObject.field? name)
  | .element a i => j.heap[a]?.bind (JavaObject.element? i)

/-- The state with another value at a place. -/
def put (j : JavaState) (p : Place) (v : JavaValue) : JavaState :=
  match p with
  | .binding name => { j with locals := (name, v) :: j.locals }
  | .field a name => { j with heap := j.heap.modify a (JavaObject.setField name v) }
  | .element a i => { j with heap := j.heap.modify a (JavaObject.setElement i v) }

/-- The state with one more object. -/
def allocate (j : JavaState) (o : JavaObject) : JavaState :=
  { j with heap := j.heap ++ [o] }

/-- The value of a variable. -/
def variableValue (j : JavaState) (name : String) : Except JavaError JavaValue :=
  match j.get? (.binding name) with
  | some v => .ok v
  | none => .error (.undeclared name)

/-- The place that a step from a value leads to. The name of a field must not look
    like an index. -/
def locate (j : JavaState) (v : JavaValue) (step : ChainStep) : Except JavaError Place :=
  match v with
  | .null => .error .nullDereference
  | .const _ => .error .badStep
  | .object a =>
    match j.heap[a]?, step with
    | some (.ofClass c fields), .field name =>
      if name.toList.head? = some '[' then .error .badStep
      else if name ∈ fields.map Prod.fst then .ok (.field a name)
      else .error (.noSuchField c name)
    | some (.ofArray _ elements), .index i =>
      if 0 ≤ i ∧ i < elements.length then .ok (.element a i.toNat) else .error (.outOfBounds i)
    | _, _ => .error .badStep

/-- The value that a step leads to. -/
def follow (j : JavaState) (v : JavaValue) (step : ChainStep) : Except JavaError JavaValue := do
  let p ← j.locate v step
  match j.get? p with
  | some w => return w
  | none => .error .badStep

/-- The value at the end of a chain of steps. -/
def chase (j : JavaState) (v : JavaValue) (steps : List ChainStep) : Except JavaError JavaValue :=
  steps.foldlM j.follow v

/-- The length of an array. -/
def lengthOf (j : JavaState) (v : JavaValue) : Except JavaError JavaValue :=
  match v with
  | .null => .error .nullDereference
  | .const _ => .error .badStep
  | .object a =>
    match j.heap[a]? with
    | some (.ofArray _ elements) => .ok (.const (.int (Int32.ofNat elements.length)))
    | _ => .error .badStep

/-- The value that a step of an origin leads to. -/
def access (j : JavaState) (v : JavaValue) : Accessor → Except JavaError JavaValue
  | .field name => j.follow v (.field name)
  | .index i =>
    match Number.parseDecimal32 i.toList with
    | some k => j.follow v (.index k)
    | none => .error .badStep
  | .length => j.lengthOf v

/-- The value at an origin. -/
def readAt (j : JavaState) (o : Origin) : Except JavaError JavaValue := do
  let v ← j.variableValue (Setup.rootVariable o.root)
  o.steps.foldlM j.access v

/-- Stores a value at the end of a chain from a variable. -/
def store (j : JavaState) (name : String) (steps : List ChainStep) (v : JavaValue) :
    Except JavaError JavaState := do
  let root ← j.variableValue name
  let holder ← j.chase root steps.dropLast
  match steps.getLast? with
  | some last => return j.put (← j.locate holder last) v
  | none => .error .badStep

end JavaState

/-- The value of a source, and the state after it was computed. -/
def Source.eval (classes : ClassTable) :
    Source → JavaState → Except JavaError (JavaValue × JavaState)
  | .null, j => .ok (.null, j)
  | .literal type c, j => .ok (.const (c.convert type), j)
  | .var name, j => return (← j.variableValue name, j)
  | .newObject c, j => .ok (.object j.heap.length, j.allocate (.new classes c))
  | .newArray type length, j => do
    match ← j.variableValue length with
    | .const (.int n) =>
      if 0 ≤ n.toInt then
        return (.object j.heap.length, j.allocate (.newArray type n.toInt.toNat))
      else .error (.badLength (.const (.int n)))
    | v => .error (.badLength v)
  | .element name indices, j => do
    return (← j.chase (← j.variableValue name) (indices.map .index), j)
  | .chain _ name steps, j => do return (← j.chase (← j.variableValue name) steps, j)
  | .cast _ s, j => s.eval classes j

/-- What a statement does. -/
def Statement.exec (classes : ClassTable) (j : JavaState) :
    Statement → Except JavaError JavaState
  | .declare _ name v =>
    if (j.get? (.binding name)).isSome then .error (.redeclared name)
    else do
      let (w, j) ← v.eval classes j
      return j.put (.binding name) w
  | .storeElement name indices v => do
    let (w, j) ← v.eval classes j
    j.store name (indices.map .index) w
  | .storeChain name steps v => do
    let (w, j) ← v.eval classes j
    j.store name steps w

/-- What statements do, one after the other. -/
def runStatements (classes : ClassTable) (statements : List Statement) (j : JavaState) :
    Except JavaError JavaState :=
  statements.foldlM (Statement.exec classes) j

/-- The form of an object: its class with the names of its fields, or its type
    with its length. -/
inductive ObjectForm where
  | ofClass (className : String) (names : List String)
  | ofArray (type : String) (length : Nat)
  deriving Repr, DecidableEq

/-- The form of an object. -/
def JavaObject.form : JavaObject → ObjectForm
  | ofClass c fields => .ofClass c (fields.map Prod.fst)
  | ofArray type elements => .ofArray type elements.length

/-- The form of the object at an address. -/
def JavaState.formAt (j : JavaState) (a : Nat) : Option ObjectForm :=
  j.heap[a]?.map JavaObject.form

section Laws

variable {j : JavaState} {p q : Place} {v w : JavaValue} {o : JavaObject} {name : String}

theorem form_setField (name : String) (v : JavaValue) (o : JavaObject) :
    (o.setField name v).form = o.form := by
  cases o with
  | ofClass c fields =>
      have hnames : (fields.map fun e => if e.1 = name then (e.1, v) else e).map Prod.fst
          = fields.map Prod.fst := by
        rw [List.map_map]
        refine List.map_congr_left fun e _ => ?_
        rw [Function.comp_apply]
        split <;> rfl
      rw [JavaObject.setField, JavaObject.form, hnames, JavaObject.form]
  | ofArray type elements => rfl

theorem form_setElement (i : Nat) (v : JavaValue) (o : JavaObject) :
    (o.setElement i v).form = o.form := by
  cases o with
  | ofClass c fields => rfl
  | ofArray type elements =>
      rw [JavaObject.setElement, JavaObject.form, List.length_set, JavaObject.form]

theorem field?_setField_self (h : (o.field? name).isSome) :
    (o.setField name v).field? name = some v := by
  cases o with
  | ofArray type elements => exact absurd h Bool.false_ne_true
  | ofClass c fields =>
      simp only [JavaObject.field?, JavaObject.setField] at h ⊢
      induction fields with
      | nil => exact absurd h Bool.false_ne_true
      | cons e rest ih =>
          rw [List.map_cons]
          by_cases he : e.1 = name
          · rw [if_pos he, List.lookup_cons, he, beq_self_eq_true]
          · have hne : (name == e.1) = false := beq_eq_false_iff_ne.2 fun hc => he hc.symm
            rw [if_neg he, List.lookup_cons, hne]
            rw [List.lookup_cons, hne] at h
            exact ih h

theorem field?_setField_other {other : String} (h : other ≠ name) (o : JavaObject) :
    (o.setField name v).field? other = o.field? other := by
  cases o with
  | ofArray type elements => rfl
  | ofClass c fields =>
      simp only [JavaObject.field?, JavaObject.setField]
      induction fields with
      | nil => rfl
      | cons e rest ih =>
          rw [List.map_cons, List.lookup_cons, List.lookup_cons, ih]
          by_cases he : e.1 = name
          · have hne : (other == e.1) = false := beq_eq_false_iff_ne.2 fun hc => h (hc.trans he)
            rw [if_pos he, hne]
          · rw [if_neg he]

theorem element?_setElement_self {i : Nat} (h : (o.element? i).isSome) :
    (o.setElement i v).element? i = some v := by
  cases o with
  | ofClass c fields => exact absurd h Bool.false_ne_true
  | ofArray type elements =>
      simp only [JavaObject.element?, JavaObject.setElement] at h ⊢
      exact List.getElem?_set_self (by simpa using h)

theorem element?_setElement_other {i k : Nat} (h : k ≠ i) (o : JavaObject) :
    (o.setElement i v).element? k = o.element? k := by
  cases o with
  | ofClass c fields => rfl
  | ofArray type elements => exact List.getElem?_set_ne (Ne.symm h)

theorem element?_setField (name : String) (v : JavaValue) (k : Nat) (o : JavaObject) :
    (o.setField name v).element? k = o.element? k := by
  cases o <;> rfl

theorem field?_setElement (i : Nat) (v : JavaValue) (name : String) (o : JavaObject) :
    (o.setElement i v).field? name = o.field? name := by
  cases o <;> rfl

/-- What is read from the objects of a heap does not depend on an object that was
    changed where it is not read. -/
theorem bind_getElem?_modify {β : Type} {f : JavaObject → JavaObject} {g : JavaObject → Option β}
    {a b : Nat} (h : a = b → ∀ o, g (f o) = g o) (heap : List JavaObject) :
    (heap.modify a f)[b]?.bind g = heap[b]?.bind g := by
  rw [List.getElem?_modify]
  cases heap[b]? with
  | none => rfl
  | some o =>
      rw [Option.map_eq_map, Option.map_some, Option.bind_some, Option.bind_some]
      split
      · rename_i hab
        exact h hab o
      · rfl

/-- No write changes the form of an object. -/
theorem formAt_put (j : JavaState) (p : Place) (v : JavaValue) (a : Nat) :
    (j.put p v).formAt a = j.formAt a := by
  unfold JavaState.formAt
  rw [Option.map_eq_bind, Option.map_eq_bind]
  cases p with
  | binding name => rfl
  | field b name =>
      exact bind_getElem?_modify (fun _ o => by
        rw [Function.comp_apply, Function.comp_apply, form_setField]) j.heap
  | element b i =>
      exact bind_getElem?_modify (fun _ o => by
        rw [Function.comp_apply, Function.comp_apply, form_setElement]) j.heap

/-- No write creates an object. -/
theorem length_heap_put (j : JavaState) (p : Place) (v : JavaValue) :
    (j.put p v).heap.length = j.heap.length := by
  cases p with
  | binding name => rfl
  | field b name => exact List.length_modify _ _ _
  | element b i => exact List.length_modify _ _ _

/-- A variable holds what is written to it, whether or not it was there. -/
theorem get?_put_binding : (j.put (.binding name) v).get? (.binding name) = some v := by
  simp only [JavaState.put, JavaState.get?, List.lookup_cons, beq_self_eq_true]

/-- A place that holds something holds what is written to it. -/
theorem get?_put_self (h : (j.get? p).isSome) : (j.put p v).get? p = some v := by
  have hmodify : ∀ {a : Nat} {f : JavaObject → JavaObject} {g : JavaObject → Option JavaValue},
      (∀ o, (g o).isSome → g (f o) = some v) → (j.heap[a]?.bind g).isSome →
      (j.heap.modify a f)[a]?.bind g = some v := by
    intro a f g hf hg
    rw [List.getElem?_modify]
    cases ho : j.heap[a]? with
    | none =>
        rw [ho] at hg
        exact absurd hg Bool.false_ne_true
    | some o =>
        rw [ho] at hg
        rw [Option.map_eq_map, Option.map_some, Option.bind_some, if_pos rfl]
        exact hf o hg
  cases p with
  | binding name => exact get?_put_binding
  | field a name => exact hmodify (fun _ ho => field?_setField_self ho) h
  | element a i => exact hmodify (fun _ ho => element?_setElement_self ho) h

/-- A write leaves all other places as they were. -/
theorem get?_put_other (h : q ≠ p) : (j.put p v).get? q = j.get? q := by
  cases p with
  | binding name =>
      cases q with
      | binding other =>
          have hne : (other == name) = false :=
            beq_eq_false_iff_ne.2 fun hc => h (by rw [hc])
          simp only [JavaState.put, JavaState.get?, List.lookup_cons, hne]
      | field b other => rfl
      | element b i => rfl
  | field a name =>
      cases q with
      | binding other => rfl
      | field b other =>
          exact bind_getElem?_modify
            (fun hab => field?_setField_other fun hc => h (by rw [hab, hc])) j.heap
      | element b i => exact bind_getElem?_modify (fun _ => element?_setField name v i) j.heap
  | element a i =>
      cases q with
      | binding other => rfl
      | field b other => exact bind_getElem?_modify (fun _ => field?_setElement i v other) j.heap
      | element b k =>
          exact bind_getElem?_modify
            (fun hab => element?_setElement_other fun hc => h (by rw [hab, hc])) j.heap

/-- A new object leaves all places as they were. -/
theorem get?_allocate (o : JavaObject) (h : j.get? p = some w) :
    (j.allocate o).get? p = some w := by
  have hkept : ∀ {a : Nat} {g : JavaObject → Option JavaValue}, j.heap[a]?.bind g = some w →
      (j.heap ++ [o])[a]?.bind g = some w := by
    intro a g hg
    rcases Option.bind_eq_some_iff.1 hg with ⟨r, hr, hgr⟩
    rw [getElem?_snoc.2 (.inl hr), Option.bind_some, hgr]
  cases p with
  | binding name => exact h
  | field a name => exact hkept h
  | element a i => exact hkept h

/-- A new object leaves all objects as they were. -/
theorem formAt_allocate {a : Nat} {form : ObjectForm} (o : JavaObject)
    (h : j.formAt a = some form) : (j.allocate o).formAt a = some form := by
  rcases Option.map_eq_some_iff.1 h with ⟨r, hr, hform⟩
  rw [JavaState.formAt, JavaState.allocate, getElem?_snoc.2 (.inl hr), Option.map_some, hform]

/-- A new object stands behind all others. -/
theorem formAt_allocate_self (j : JavaState) (o : JavaObject) :
    (j.allocate o).formAt j.heap.length = some o.form := by
  rw [JavaState.formAt, JavaState.allocate, getElem?_snoc.2 (.inr ⟨rfl, rfl⟩), Option.map_some]

/-- A step to a field of a class leads to the field, which holds something. -/
theorem locate_field {a : Nat} {c : String} {names : List String}
    (hform : j.formAt a = some (.ofClass c names)) (hname : name ∈ names)
    (hplain : name.toList.head? ≠ some '[') :
    j.locate (.object a) (.field name) = .ok (.field a name) ∧
      (j.get? (.field a name)).isSome := by
  rcases Option.map_eq_some_iff.1 hform with ⟨o, ho, hof⟩
  cases o with
  | ofArray type elements => exact absurd hof (by simp only [JavaObject.form, reduceCtorEq,
      not_false_eq_true])
  | ofClass c' fields =>
      obtain ⟨rfl, rfl⟩ := ObjectForm.ofClass.inj hof
      refine ⟨by simp only [JavaState.locate, ho, if_neg hplain, if_pos hname], ?_⟩
      rw [JavaState.get?, ho, Option.bind_some, JavaObject.field?]
      rcases List.mem_map.1 hname with ⟨e, he, rfl⟩
      rw [List.lookup_isSome_iff]
      exact ⟨e, he, beq_self_eq_true _⟩

/-- A step to an element within the bounds leads to the element, which holds
    something. -/
theorem locate_element {a i length : Nat} {type : String}
    (hform : j.formAt a = some (.ofArray type length)) (hi : i < length) :
    j.locate (.object a) (.index i) = .ok (.element a i) ∧ (j.get? (.element a i)).isSome := by
  rcases Option.map_eq_some_iff.1 hform with ⟨o, ho, hof⟩
  cases o with
  | ofClass c fields => exact absurd hof (by simp only [JavaObject.form, reduceCtorEq,
      not_false_eq_true])
  | ofArray type' elements =>
      obtain ⟨rfl, rfl⟩ := ObjectForm.ofArray.inj hof
      have hbounds : (0 : Int) ≤ i ∧ (i : Int) < elements.length := by omega
      refine ⟨by simp only [JavaState.locate, ho, if_pos hbounds, Int.toNat_natCast], ?_⟩
      rw [JavaState.get?, ho, Option.bind_some, JavaObject.element?]
      simpa using hi

/-- The length of an array is read from its form. -/
theorem lengthOf_array {a length : Nat} {type : String}
    (hform : j.formAt a = some (.ofArray type length)) :
    j.lengthOf (.object a) = .ok (.const (.int (Int32.ofNat length))) := by
  rcases Option.map_eq_some_iff.1 hform with ⟨o, ho, hof⟩
  cases o with
  | ofClass c fields => exact absurd hof (by simp only [JavaObject.form, reduceCtorEq,
      not_false_eq_true])
  | ofArray type' elements =>
      obtain ⟨rfl, rfl⟩ := ObjectForm.ofArray.inj hof
      simp only [JavaState.lengthOf, ho]

end Laws

end TestCase

end PathWitness
