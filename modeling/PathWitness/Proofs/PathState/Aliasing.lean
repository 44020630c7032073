import PathWitness.Proofs.PathState.Anchored
import PathWitness.Proofs.PathState.Rereading
import PathWitness.Proofs.Resolution.Fields

/-!
# Aliases Are Read Alike

Two references that lead to the same object are two names for it. Reading behind the one
and reading behind the other walk through different variables and different objects until
they come to the references. From there on they look at the same object, and an element
that is created on the way gets its symbol from the origin of the array, not from the
origin that was asked for. So they find the same values, create the same symbols and fail
in the same way. Only the numbers of steps in the wording of an error differ.

It matters that both walks come to their references again. References were read at some
earlier point of the path, and what was found then is found for as long as the path goes
on.

All of this is about walks. An origin whose root is not a variable is no walk: it is looked
up among the symbols by its text. A variable whose name has a dot in it is found that way,
and one more step behind it is another text, for which there may be no symbol. Without such
names an origin that is read from a text always starts at a variable, if it is found at all.

## Main definitions

* `SameReading`: Two readings with the same outcome.
* `WasRead`: A reference was read at an origin, at some point of a path.

## Theorems

* `Follows.lasts`: What a walk can find lasts along a path.
* `walkFrom_cons_alike`: Walks that start at the same object.
* `WasRead.again`: What was read is read again.
* `WasRead.bound`: Without dots and brackets in names, reading starts at a variable.
* `aliases_alike`: Reading behind two aliases.
-/

namespace PathWitness

open PathState (lookup walkFrom Lasts)

variable {k : Conduct} {s : PathState} {u v w : Session} {o o' : Origin}

/-- A change does not touch the variables. -/
theorem Change.frame {classes : ClassTable} {may : PathState → Term → Prop} {s' : PathState}
    (h : Change classes may s s') : s'.frame = s.frame := by
  cases h <;> rfl

/-- Along a path the variables stay as they are. -/
theorem frame_respects (k : Conduct) : Respects k fun u v => v.state.frame = u.state.frame :=
  Respects.ofFired ⟨⟨fun _ => rfl, fun h h' => h'.trans h⟩, fun _ hchange => hchange.frame,
    fun _ _ => rfl⟩ fun _ _ _ _ _ _ _ _ _ => rfl

/-- What a reference leads to is in a clause, and clauses stay. -/
theorem Onward.deref {classes : ClassTable} {s' : PathState} (hs : s.Coherent classes)
    (h : Onward classes s s') {ref : Reference} {target : Target}
    (hderef : s.deref ref = .ok target) : s'.deref ref = .ok target := by
  cases ref with
  | resolved t => exact hderef
  | symbolic ref =>
      simp only [PathState.deref] at hderef ⊢
      cases hresolution : s.condition.resolution? ref.number with
      | none =>
          rw [hresolution] at hderef
          cases hderef
      | some r =>
          rw [hresolution] at hderef
          obtain ⟨hclause, hnumber⟩ := hs.parts.condition.mem_of_resolution? hresolution
          rw [← hnumber, h.coherent.parts.condition.resolution?_eq (h.clauses.subset hclause)]
          exact hderef

/-- What a walk can find lasts along a path. -/
theorem Follows.lasts (h : Follows k u v) (hu : u.state.Coherent k.classes) :
    Lasts u.state v.state where
  readable := fun _ => (h.onward hu).coherent.checkReadable
  frame := (h.under (frame_respects k) hu).2
  symbols := (h.under (frame_respects k) hu).1.2
  heap := (h.under (heap_respects k) hu).2
  deref := (h.onward hu).deref hu

/-- Two readings with the same outcome: the same value or an error of the same kind, and the
    same state. -/
def SameReading (r r' : Except LookupError (Option Value) × PathState) : Prop :=
  r.1.mapError LookupError.kind = r'.1.mapError LookupError.kind ∧ r.2 = r'.2

namespace PathState

variable {i i' : Nat} {x x' : Option Value} {a : Accessor} {steps rest : List Accessor}

/-- Walks whose first steps start at the same object are alike, if the rest of them is. -/
theorem walkFrom_cons_alike
    (hfollow : (s.heap.follow s.deref i a x).mapError HeapError.kind
      = (s.heap.follow s.deref i' a x').mapError HeapError.kind)
    (hrest : ∀ y t, SameReading ((walkFrom (i + 1) y rest).runOn t)
      ((walkFrom (i' + 1) y rest).runOn t)) :
    SameReading ((walkFrom i x (a :: rest)).runOn s) ((walkFrom i' x' (a :: rest)).runOn s) := by
  rw [runOn_walkFrom_cons, runOn_walkFrom_cons]
  cases hfirst : s.heap.follow s.deref i a x with
  | error e =>
      cases hsecond : s.heap.follow s.deref i' a x' with
      | error e' =>
          rw [hfirst, hsecond] at hfollow
          exact ⟨congrArg Except.error (Except.error.inj hfollow), rfl⟩
      | ok place =>
          rw [hfirst, hsecond] at hfollow
          cases hfollow
  | ok place =>
      have hsecond : s.heap.follow s.deref i' a x' = .ok place :=
        ok_of_mapError (hfollow.symm.trans (by rw [hfirst]; rfl))
      rw [hsecond]
      dsimp only
      cases place.2.get a with
      | ok y => exact hrest y s
      | error fault =>
          rcases (fill place.1 place.2 a).runOn s with ⟨e | y, t⟩
          · exact ⟨rfl, rfl⟩
          · exact hrest y t

/-- The numbers of steps are told in errors, and change nothing else. -/
theorem follow_renumbered (i i' : Nat) :
    (s.heap.follow s.deref i a x).mapError HeapError.kind
      = (s.heap.follow s.deref i' a x).mapError HeapError.kind := by
  unfold Heap.follow
  split
  · rename_i ref
    cases s.deref ref with
    | error e => rfl
    | ok target => cases target <;> rfl
  · rfl

theorem walkFrom_renumbered (i i' : Nat) (x : Option Value) (steps : List Accessor)
    (s : PathState) :
    SameReading ((walkFrom i x steps).runOn s) ((walkFrom i' x steps).runOn s) := by
  induction steps generalizing i i' x s with
  | nil => exact ⟨rfl, rfl⟩
  | cons a rest ih => exact walkFrom_cons_alike (follow_renumbered i i') fun y t => ih _ _ y t

/-- Walks behind two references to the same object are alike. -/
theorem walkFrom_alike {ref ref' : Reference} {target : Target} (hsteps : steps ≠ [])
    (hderef : s.deref ref = .ok target) (hderef' : s.deref ref' = .ok target) (i i' : Nat) :
    SameReading ((walkFrom i (some (.ref ref)) steps).runOn s)
      ((walkFrom i' (some (.ref ref')) steps).runOn s) := by
  cases steps with
  | nil => exact absurd rfl hsteps
  | cons a rest =>
      refine walkFrom_cons_alike ?_ fun y t => walkFrom_renumbered _ _ y rest t
      simp only [Heap.follow, hderef, hderef']
      cases target <;> rfl

/-- Reading behind an origin that starts at a variable goes on from what is read there. -/
theorem lookup_append (hbound : (s.binding? o.root).isSome = true)
    (hread : (lookup o).runOn s = (.ok x, s)) (steps : List Accessor) :
    (lookup ⟨o.root, o.steps ++ steps⟩).runOn s
      = (walkFrom o.steps.length x steps).runOn s := by
  obtain ⟨y, hy⟩ := Option.isSome_iff_exists.1 hbound
  rw [runOn_lookup] at hread ⊢
  cases hopen : s.checkReadable with
  | error e =>
      rw [hopen] at hread
      cases hread
  | ok _ =>
      rw [hopen] at hread
      simp only [hy] at hread ⊢
      rw [walkFrom_append, hread, andThen_ok, Nat.zero_add]

end PathState

/-- A reference was read at an origin, at some point of a path that has come to a session. -/
def WasRead (k : Conduct) (entry : Session) (o : Origin) (ref : Reference) (w : Session) : Prop :=
  ∃ u s, Follows k entry u ∧ (lookup o).runOn u.state = (.ok (some (.ref ref)), s) ∧
    Follows k ⟨s, u.journal⟩ w

section Reading

variable {entry : Session} {ref ref' : Reference}

/-- What was read is read again, and nothing changes. -/
theorem WasRead.again (h : WasRead k entry o ref w) (hentry : entry.state.Coherent k.classes) :
    (lookup o).runOn w.state = (.ok (some (.ref ref)), w.state) ∧
      w.state.Coherent k.classes ∧ w.state.frame = entry.state.frame := by
  obtain ⟨u, s, hu, hread, hw⟩ := h
  have hstart := hu.trans (.lookup o (.refl u))
  rw [hread] at hstart
  have hs := (hstart.onward hentry).coherent
  refine ⟨PathState.lookup_lasts hread (hw.lasts hs) (.inl ⟨_, rfl⟩), (hw.onward hs).coherent, ?_⟩
  exact ((hstart.trans hw).lasts hentry).frame

/-- If names of variables have neither dots nor brackets in them, then an origin that comes
    from a text is read from a variable. -/
theorem WasRead.bound (h : WasRead k entry o ref w) (hentry : entry.state.Coherent k.classes)
    (hnames : ∀ x ∈ entry.state.frame, Origin.isPlain x.name = true) {text : String}
    (hparse : Origin.parse text = .ok o) : (w.state.binding? o.root).isSome = true := by
  obtain ⟨hread, hw, hframe⟩ := h.again hentry
  obtain ⟨hroot, hplain, -⟩ := Origin.parse_eq_ok_iff.1 hparse
  cases hbound : w.state.binding? o.root with
  | some x => rfl
  | none =>
      rw [PathState.runOn_lookup, hw.checkReadable, hbound] at hread
      cases hfind : w.state.symbols.find? o with
      | none =>
          rw [hfind] at hread
          cases hread
      | some x =>
          -- The symbol starts at a variable, and its text starts with the name of that.
          have hx := SymbolTable.mem_of_find? hfind
          obtain ⟨y, hy, -⟩ := PathState.walkFrom_symbol hw hx
          have hmem : y ∈ entry.state.frame := by
            rw [← hframe]
            exact List.mem_of_find?_eq_some hy
          have hname : y.name = x.origin.root := by simpa using List.find?_some hy
          have hsame : x.origin.root = o.root :=
            Origin.root_of_text (hw.parts.table.named x hx) (by simpa [Origin.isEmpty] using hroot)
              (hname ▸ hnames y hmem) hplain (SymbolTable.text_of_find? hfind)
          rw [hsame, hbound] at hy
          cases hy

end Reading

/-- Two references that were read on a path and lead to the same object are aliases, and
    what is read behind the one is read behind the other: the same value or an error of the
    same kind, and the state is the same afterwards. The origins have to start at variables.
    If names have neither dots nor brackets in them, all origins that are read from texts
    do. -/
theorem aliases_alike {signature : Signature} {isStatic : Bool} {names : List String}
    {entry : PathState} {j : Journal} {text text' : String} {ref ref' : Reference} {p : Int}
    (henter : PathState.enter signature isStatic names = .ok entry)
    (hparse : Origin.parse text = .ok o) (hparse' : Origin.parse text' = .ok o')
    (hread : WasRead k ⟨entry, j⟩ o ref w) (hread' : WasRead k ⟨entry, j⟩ o' ref' w)
    (hderef : w.state.deref ref = .ok (.object p))
    (hderef' : w.state.deref ref' = .ok (.object p)) :
    ((∀ x ∈ entry.frame, Origin.isPlain x.name = true) →
      (w.state.binding? o.root).isSome = true ∧ (w.state.binding? o'.root).isSome = true) ∧
    ((w.state.binding? o.root).isSome = true → (w.state.binding? o'.root).isSome = true →
      ∀ steps ≠ [], SameReading ((lookup ⟨o.root, o.steps ++ steps⟩).runOn w.state)
        ((lookup ⟨o'.root, o'.steps ++ steps⟩).runOn w.state)) := by
  have hentry := PathState.enter_coherent k.classes henter
  refine ⟨fun hnames => ⟨hread.bound hentry hnames hparse, hread'.bound hentry hnames hparse'⟩,
    fun hbound hbound' steps hsteps => ?_⟩
  rw [PathState.lookup_append hbound (hread.again hentry).1,
    PathState.lookup_append hbound' (hread'.again hentry).1]
  exact PathState.walkFrom_alike hsteps hderef hderef' _ _

/-- A method that is given two arrays. -/
def twinMethod : Signature := ⟨"Twin", "([I[I)V", "compare"⟩

/-- The state at the entry of the method, by the names of the arrays. -/
def twinEntry (first second : String) : PathState where
  signature := twinMethod
  isStatic := true
  frame := [⟨0, first, "[I", .ref ⟨0, "[I", .ofRoot first⟩⟩,
    ⟨1, second, "[I", .ref ⟨1, "[I", .ofRoot second⟩⟩]
  symbols := ⟨[.ref ⟨0, "[I", .ofRoot first⟩, .ref ⟨1, "[I", .ofRoot second⟩]⟩

/-- Both arrays are the same. -/
def twinSession (first second : String) : Session :=
  ((nodeEnvironment.resolve ⟨1, "[I", .ofRoot second⟩ (.aliasOf 1)).runOn
    ((nodeEnvironment.resolve ⟨0, "[I", .ofRoot first⟩ (.expand "")).runOn
      ⟨twinEntry first second, []⟩).2).2

theorem twinSession_follows (first second : String) : Follows (.ownSymbols nodeClasses)
    ⟨twinEntry first second, []⟩ (twinSession first second) := by
  have hexpanded := Follows.resolve_node ⟨0, "[I", .ofRoot first⟩ (.expand "")
    (.refl ⟨twinEntry first second, []⟩) List.mem_cons_self
  exact .resolve nodeEnvironment _ _ (.refl _)
    (.symbol (List.mem_cons_of_mem _ List.mem_cons_self)) hexpanded rfl trivial
    fun _ hi => by cases hi

/-- Every name that is found at the entry was read. -/
theorem wasRead_twin {first second : String} {o : Origin} {ref : Reference}
    (hread : (lookup o).runOn (twinEntry first second)
      = (.ok (some (.ref ref)), twinEntry first second)) :
    WasRead (.ownSymbols nodeClasses) ⟨twinEntry first second, []⟩ o ref
      (twinSession first second) :=
  ⟨_, _, .refl _, hread, twinSession_follows first second⟩

theorem enter_twin {first second : String}
    (hbind : PathState.bindParameters [first, second] 0 [.typed "[I", .typed "[I"]
      { signature := twinMethod, isStatic := true } = .ok (twinEntry first second)) :
    PathState.enter twinMethod true [first, second] = .ok (twinEntry first second) := by
  have hparameters : Descriptor.parameters twinMethod.descriptor
      = .ok [.typed "[I", .typed "[I"] := by cbv
  have hresult : Descriptor.result twinMethod.descriptor = .ok "V" := by cbv
  rw [PathState.enter, hparameters, hresult]
  exact hbind

/-- An element that is not there yet is read through either of two names of an array. -/
theorem aliases_alike_twins :
    PathState.enter twinMethod true ["a", "b"] = .ok (twinEntry "a" "b") ∧
      Origin.parse "a" = .ok ⟨"a", []⟩ ∧ Origin.parse "b" = .ok ⟨"b", []⟩ ∧
      WasRead (.ownSymbols nodeClasses) ⟨twinEntry "a" "b", []⟩ ⟨"a", []⟩
        (.symbolic ⟨0, "[I", .ofRoot "a"⟩) (twinSession "a" "b") ∧
      WasRead (.ownSymbols nodeClasses) ⟨twinEntry "a" "b", []⟩ ⟨"b", []⟩
        (.symbolic ⟨1, "[I", .ofRoot "b"⟩) (twinSession "a" "b") ∧
      ((lookup ⟨"b", [.index "4"]⟩).runOn (twinSession "a" "b").state).2.symbols.size
        = (twinSession "a" "b").state.symbols.size + 1 ∧
      SameReading ((lookup ⟨"a", [.index "4"]⟩).runOn (twinSession "a" "b").state)
        ((lookup ⟨"b", [.index "4"]⟩).runOn (twinSession "a" "b").state) := by
  have henter : PathState.enter twinMethod true ["a", "b"] = .ok (twinEntry "a" "b") :=
    enter_twin rfl
  have hparse : Origin.parse "a" = .ok ⟨"a", []⟩ := by decide +kernel
  have hparse' : Origin.parse "b" = .ok ⟨"b", []⟩ := by decide +kernel
  have hread := @wasRead_twin "a" "b" ⟨"a", []⟩ (.symbolic ⟨0, "[I", .ofRoot "a"⟩) rfl
  have hread' := @wasRead_twin "a" "b" ⟨"b", []⟩ (.symbolic ⟨1, "[I", .ofRoot "b"⟩) rfl
  have halike := aliases_alike henter hparse hparse' hread hread' (p := 1)
    (ok_of_mapError (show Except.mapError HeapError.kind _ = _ by decide +kernel))
    (ok_of_mapError (show Except.mapError HeapError.kind _ = _ by decide +kernel))
  obtain ⟨hbound, hbound'⟩ := halike.1 (by decide +kernel)
  exact ⟨henter, hparse, hparse', hread, hread', by decide +kernel,
    halike.2 hbound hbound' [.index "4"] (by decide)⟩

/-- One of two names of an array has a dot in it. It is found, but an element behind it is
    not. -/
theorem dotted_name_unlike :
    PathState.enter twinMethod true ["a.b", "c"] = .ok (twinEntry "a.b" "c") ∧
      Origin.parse "a.b" = .ok ⟨"a", [.field "b"]⟩ ∧ Origin.parse "c" = .ok ⟨"c", []⟩ ∧
      WasRead (.ownSymbols nodeClasses) ⟨twinEntry "a.b" "c", []⟩ ⟨"a", [.field "b"]⟩
        (.symbolic ⟨0, "[I", .ofRoot "a.b"⟩) (twinSession "a.b" "c") ∧
      WasRead (.ownSymbols nodeClasses) ⟨twinEntry "a.b" "c", []⟩ ⟨"c", []⟩
        (.symbolic ⟨1, "[I", .ofRoot "c"⟩) (twinSession "a.b" "c") ∧
      (twinSession "a.b" "c").state.deref (.symbolic ⟨0, "[I", .ofRoot "a.b"⟩)
        = .ok (.object 1) ∧
      (twinSession "a.b" "c").state.deref (.symbolic ⟨1, "[I", .ofRoot "c"⟩) = .ok (.object 1) ∧
      ¬ SameReading ((lookup ⟨"a", [.field "b", .index "0"]⟩).runOn (twinSession "a.b" "c").state)
        ((lookup ⟨"c", [.index "0"]⟩).runOn (twinSession "a.b" "c").state) := by
  exact ⟨enter_twin rfl, by decide +kernel, by decide +kernel, wasRead_twin rfl,
    wasRead_twin rfl,
    ok_of_mapError (show Except.mapError HeapError.kind _ = _ by decide +kernel),
    ok_of_mapError (show Except.mapError HeapError.kind _ = _ by decide +kernel),
    fun halike => absurd (congrArg Except.isOk halike.1) (by decide +kernel)⟩

end PathWitness
