import PathWitness.Proofs.Descriptor
import PathWitness.Proofs.PathState.Coherence

/-!
# The Layout of a Frame

At the entry of a method its variables are put into slots: the receiver first, if there is
one, and then the parameters in the order of the descriptor. A wide parameter takes two
slots, so the slot of a parameter is the sum of the widths of what comes before it. One loop
does all of this. It hands out slots and names, refuses a name that is taken, and asks for
one symbol after the other.

No symbol is there before its variable is, since names of variables are distinct and a root
can be read off the text of its origin. So every variable gets a symbol of its own, and the
numbers of the symbols are the positions of the variables.

The parameters are told from the receiver by name. If a parameter is called like the
receiver it is not among them, and therefore the names that are given must not have that
one.

## Main definitions

* `Variable.place`: Where a variable is, and as what.
* `PathState.parameterPlaces`: Where parameters are.
* `PathState.OwnRoots`: Variables hold the symbols that are rooted at their names.

## Theorems

* `OwnRoots.push`: One more variable.
* `bindParameters_places`: Where the parameters are put.
* `bindReceiver_places`: Where the receiver is put.
* `enter_ascending`: Variables come in the order of their slots.
* `frame_layout`: The frame at the entry of a method.
-/

namespace PathWitness

variable {names : List String} {fields : List FieldType} {isStatic : Bool}

/-- Where a variable is, and as what. -/
def Variable.place (v : Variable) : Nat × String × String :=
  (v.slot, v.name, v.type)

/-- The root can be read off the origin of a variable. -/
theorem Origin.root_of_text_ofRoot {name name' : String} (hname : name ≠ "") (hname' : name' ≠ "")
    (h : (Origin.ofRoot name).text = (Origin.ofRoot name').text) : name = name' := by
  simpa [Origin.text, Origin.isEmpty, Origin.path, Origin.ofRoot, hname, hname'] using h

namespace PathState

variable {s s' : PathState} {name type : String} {x : Symbol} {t : SymbolTable}

/-- Variables hold the symbols that are rooted at their names, and there are no other
    symbols. -/
structure OwnRoots (s : PathState) : Prop where
  symbols : s.symbols.symbols = s.frame.map Variable.value
  named : ∀ v ∈ s.frame, v.name ≠ ""
  origin : ∀ v ∈ s.frame, v.value.origin = .ofRoot v.name
  type : ∀ v ∈ s.frame, v.value.type = v.type

/-- A name that is not taken has no symbol. -/
theorem OwnRoots.not_found (h : s.OwnRoots) (hfree : s.binding? name = none) (hname : name ≠ "")
    (hx : x ∈ s.symbols.symbols) : x.origin.text ≠ (Origin.ofRoot name).text := by
  rw [h.symbols] at hx
  obtain ⟨v, hv, rfl⟩ := List.mem_map.1 hx
  rw [h.origin v hv]
  intro htext
  have hsame := Origin.root_of_text_ofRoot (h.named v hv) hname htext
  exact absurd (beq_iff_eq.2 hsame) (List.find?_eq_none.1 hfree v hv)

/-- One more variable has a symbol of its own. -/
theorem OwnRoots.push (h : s.OwnRoots) (hfree : s.binding? name = none) (hname : name ≠ "")
    (hsupplies : s.symbols.Supplies (.ofRoot name) x t)
    (htype : x ∈ s.symbols.symbols ∨ x.type = type) : (s.push name type x t).OwnRoots := by
  cases hsupplies with
  | old hfind =>
      -- There is no symbol for the name that could be handed out.
      exact absurd (SymbolTable.text_of_find? hfind)
        (h.not_found hfree hname (SymbolTable.mem_of_find? hfind))
  | new hnone hnumber horigin hnamed =>
      have hasked : x.type = type := by
        refine htype.resolve_left fun hx => h.not_found hfree hname hx ?_
        rw [horigin]
      refine ⟨?_, fun v hv => ?_, fun v hv => ?_, fun v hv => ?_⟩
      · simp only [PathState.push, SymbolTable.push, h.symbols, List.map_append, List.map_cons,
          List.map_nil]
      all_goals
        rcases List.mem_append.1 hv with hv | hv
      · exact h.named v hv
      · rw [List.mem_singleton.1 hv]
        exact hname
      · exact h.origin v hv
      · rw [List.mem_singleton.1 hv]
        exact horigin
      · exact h.type v hv
      · rw [List.mem_singleton.1 hv]
        exact hasked

theorem OwnRoots.empty (signature : Signature) (isStatic : Bool) :
    OwnRoots { signature := signature, isStatic := isStatic } :=
  ⟨rfl, fun _ hv => absurd hv List.not_mem_nil, fun _ hv => absurd hv List.not_mem_nil,
    fun _ hv => absurd hv List.not_mem_nil⟩

/-- The next slot comes after the last variable. -/
theorem nextSlot_push : (s.push name type x t).nextSlot
    = s.nextSlot + (if Descriptor.isWide type then 2 else 1) := by
  simp only [nextSlot, PathState.push, List.getLast?_concat]

/-- A parameter has a name. -/
theorem parameterName_ne_empty (names : List String) (i : Nat) : parameterName names i ≠ "" := by
  have hdefault : "arg" ++ toString i ≠ "" := by simp
  unfold parameterName
  split
  · split
    · exact hdefault
    · assumption
  · exact hdefault

/-- A parameter is called like the receiver only if it is given that name. -/
theorem parameterName_ne_receiver (hnames : receiverName ∉ names) (i : Nat) :
    parameterName names i ≠ receiverName := by
  have hdefault : "arg" ++ toString i ≠ receiverName := by
    intro h
    have hfirst := congrArg (fun s => s.toList.head?) h
    simp [receiverName] at hfirst
  unfold parameterName
  split
  · rename_i n hn
    split
    · exact hdefault
    · exact fun h => hnames (h ▸ List.mem_of_getElem? hn)
  · exact hdefault

/-- A parameter with a type is a variable more. -/
theorem bindParameter_typed (h : s.bindParameter name (.typed type) = .ok s') :
    ∃ x t, s.symbols.Supplies (.ofRoot name) x t ∧ (x ∈ s.symbols.symbols ∨ x.type = type) ∧
      s' = s.push name type x t := by
  obtain ⟨⟨x, t⟩, hsymbol, hs'⟩ := bind_eq_ok (ok_of_mapError h)
  exact ⟨x, t, SymbolTable.symbolOf_supplies hsymbol, SymbolTable.symbolOf_type hsymbol,
    (Except.ok.inj hs').symm⟩

/-- The places of parameters, of which the first has a slot and an index. -/
def parameterPlaces (names : List String) (slot index : Nat) (fields : List FieldType) :
    List (Nat × String × String) :=
  fields.mapIdx fun i t =>
    (slot + FieldType.widths (fields.take i), parameterName names (index + i), t.text)

/-- Parameters are put behind the variables that are there, one after the other. -/
theorem bindParameters_places {index : Nat}
    (hbind : bindParameters names index (fields.map fun t => .typed t.text) s = .ok s')
    (hs : s.OwnRoots) : s'.OwnRoots ∧ s'.frame.map Variable.place
      = s.frame.map Variable.place ++ parameterPlaces names s.nextSlot index fields := by
  induction fields generalizing s index with
  | nil =>
      rw [← Except.ok.inj hbind]
      exact ⟨hs, (List.append_nil _).symm⟩
  | cons f rest ih =>
      obtain ⟨hfree, s₁, hparameter, hrest⟩ := bindParameters_cons hbind
      obtain ⟨x, t, hsupplies, htype, rfl⟩ := bindParameter_typed hparameter
      obtain ⟨hroots, hplaces⟩ := ih hrest
        (hs.push hfree (parameterName_ne_empty names index) hsupplies htype)
      refine ⟨hroots, ?_⟩
      rw [hplaces, nextSlot_push, Descriptor.isWide_text]
      simp only [PathState.push, List.map_append, List.map_cons, List.map_nil, List.append_assoc,
        List.singleton_append, Variable.place, parameterPlaces, List.mapIdx_cons, List.take_zero,
        List.take_succ_cons, FieldType.widths, Nat.add_zero, Nat.add_assoc, Nat.add_comm 1]

/-- The receiver is put into the first slot. It is a reference, so it takes one. -/
theorem bindReceiver_places {signature : Signature}
    (h : bindReceiver { signature := signature, isStatic := isStatic } = .ok s) :
    s.OwnRoots ∧ s.nextSlot = 1 ∧ s.frame.map Variable.place
      = [(0, receiverName, Descriptor.ofClass signature.className)] := by
  obtain ⟨⟨x, t⟩, hsymbol, hs⟩ := bind_eq_ok h
  rw [← Except.ok.inj hs]
  have hwide : Descriptor.isWide (Descriptor.ofClass signature.className) = false := by
    refine Descriptor.isWide_of_reference ?_
    by_contra hrefused
    rw [SymbolTable.reference, Bool.eq_false_iff.2 hrefused] at hsymbol
    cases hsymbol
  refine ⟨(OwnRoots.empty signature isStatic).push rfl (by decide)
    (SymbolTable.reference_supplies hsymbol) (SymbolTable.reference_type hsymbol), ?_, rfl⟩
  rw [nextSlot_push, hwide]
  rfl

/-- Variables come in the order of their slots. -/
theorem enter_ascending {signature : Signature} (h : enter signature isStatic names = .ok s) :
    s.frame.Pairwise (·.slot < ·.slot) := by
  refine (enter_induction (P := fun s => s.frame.Pairwise (·.slot < ·.slot) ∧
    ∀ v ∈ s.frame, v.slot < s.nextSlot) h ⟨List.Pairwise.nil, fun _ hv => ?_⟩ ?_).1
  · exact absurd hv List.not_mem_nil
  · intro s name type x t _ _ hs
    refine ⟨List.pairwise_append.2 ⟨hs.1, List.pairwise_singleton _ _, fun v hv w hw => ?_⟩,
      fun v hv => ?_⟩
    · rw [List.mem_singleton.1 hw]
      exact hs.2 v hv
    · rw [nextSlot_push]
      have hwidth : 0 < if Descriptor.isWide type = true then 2 else 1 := by split <;> omega
      rcases List.mem_append.1 hv with hv | hv
      · have := hs.2 v hv
        omega
      · rw [List.mem_singleton.1 hv]
        exact Nat.lt_add_of_pos_right hwidth

/-- The frame at the entry of a method. The receiver of a method that is not static is in the
    first slot, and the parameters of the descriptor follow in their order, each behind the
    slots that those before it take. Nothing else is in the frame, and the parameters are
    found in it again. Every variable holds the symbol that is rooted at its name, and symbols
    are numbered in the order of slots. -/
theorem frame_layout {className result name : String} (hnames : receiverName ∉ names)
    (h : enter ⟨className, Descriptor.ofMethod fields result, name⟩ isStatic names = .ok s) :
    s.frame.map Variable.place
        = (if isStatic then [] else [(0, receiverName, Descriptor.ofClass className)])
          ++ parameterPlaces names (if isStatic then 0 else 1) 0 fields ∧
      s.frame.Pairwise (·.slot < ·.slot) ∧
      (s.binding? receiverName).map Variable.place
        = (if isStatic then none else some (0, receiverName, Descriptor.ofClass className)) ∧
      s.parameters.map Variable.place
        = parameterPlaces names (if isStatic then 0 else 1) 0 fields ∧
      s.symbols.symbols = s.frame.map Variable.value ∧
      ∀ (i : Nat) (v : Variable), s.frame[i]? = some v →
        v.value.number = i ∧ v.value.origin = .ofRoot v.name ∧ v.value.type = v.type := by
  obtain ⟨parameters, s₁, hparameters, hreceiver, hbind⟩ := enter_eq_ok h
  rw [Descriptor.parameters_ofMethod] at hparameters
  rw [← Except.ok.inj hparameters] at hbind
  obtain ⟨hroots₁, hslot, hplaces₁⟩ : s₁.OwnRoots ∧ s₁.nextSlot = (if isStatic then 0 else 1) ∧
      s₁.frame.map Variable.place
        = if isStatic then [] else [(0, receiverName, Descriptor.ofClass className)] := by
    cases isStatic with
    | true =>
        simp only [if_true] at hreceiver
        rw [hreceiver]
        exact ⟨.empty _ _, rfl, rfl⟩
    | false =>
        have hplaced := bindReceiver_places hreceiver
        exact hplaced
  obtain ⟨hroots, hplaces⟩ := bindParameters_places hbind hroots₁
  rw [hslot, hplaces₁] at hplaces
  -- The name tells the receiver from the parameters.
  have hother : ∀ p ∈ parameterPlaces names (if isStatic then 0 else 1) 0 fields,
      p.2.1 ≠ receiverName := by
    intro p hp
    obtain ⟨i, hi, rfl⟩ := List.mem_mapIdx.1 hp
    exact parameterName_ne_receiver hnames _
  refine ⟨hplaces, enter_ascending h, ?_, ?_, hroots.symbols, fun i v hv => ⟨?_, ?_, ?_⟩⟩
  · have hfind : (s.binding? receiverName).map Variable.place
        = (s.frame.map Variable.place).find? (·.2.1 == receiverName) := by
      rw [List.find?_map]
      rfl
    have hnone : (parameterPlaces names (if isStatic then 0 else 1) 0 fields).find?
        (·.2.1 == receiverName) = none :=
      List.find?_eq_none.2 fun p hp => by simpa using hother p hp
    rw [hfind, hplaces, List.find?_append, hnone]
    cases isStatic <;> rfl
  · have hfilter : s.parameters.map Variable.place
        = (s.frame.map Variable.place).filter (·.2.1 != receiverName) := by
      rw [List.filter_map]
      rfl
    have hall : (parameterPlaces names (if isStatic then 0 else 1) 0 fields).filter
        (·.2.1 != receiverName) = parameterPlaces names (if isStatic then 0 else 1) 0 fields :=
      List.filter_eq_self.2 fun p hp => by simpa using hother p hp
    rw [hfilter, hplaces, List.filter_append, hall]
    cases isStatic <;> rfl
  · have htable := (enter_coherent {} h).parts.table
    refine htable.numbered i v.value ?_
    rw [hroots.symbols, List.getElem?_map, hv]
    rfl
  · exact hroots.origin v (List.mem_of_getElem? hv)
  · exact hroots.type v (List.mem_of_getElem? hv)

/-- The types of a method with two wide parameters. -/
def insertFields : List FieldType :=
  [.primitive .long, .array (.array (.object ⟨"p/Node", by simp⟩)), .primitive .double,
    .primitive .int]

/-- A method with these parameters. -/
def insertMethod : Signature := ⟨"p/Tree", Descriptor.ofMethod insertFields "V", "insert"⟩

/-- A wide parameter leaves a slot free behind it, and parameters without a name are named by
    their index. -/
theorem frame_layout_insert :
    ∃ s, receiverName ∉ ["key", "", "weight"] ∧
      insertMethod.descriptor = "(J[[Lp/Node;DI)V" ∧
      enter insertMethod false ["key", "", "weight"] = .ok s ∧
      s.frame.map Variable.place = [(0, "this", "Lp/Tree;"), (1, "key", "J"),
        (3, "arg1", "[[Lp/Node;"), (4, "weight", "D"), (6, "arg3", "I")] ∧
      s.parameters.map Variable.place = [(1, "key", "J"),
        (3, "arg1", "[[Lp/Node;"), (4, "weight", "D"), (6, "arg3", "I")] ∧
      s.symbols.symbols = s.frame.map Variable.value := by
  have hnames : receiverName ∉ ["key", "", "weight"] := by decide
  have hdescriptor : insertMethod.descriptor = "(J[[Lp/Node;DI)V" := by decide +kernel
  obtain ⟨s, henter⟩ : ∃ s, enter insertMethod false ["key", "", "weight"] = .ok s := by
    have hresult : Descriptor.result insertMethod.descriptor = .ok "V" := by decide +kernel
    rw [enter, insertMethod, Descriptor.parameters_ofMethod]
    rw [insertMethod] at hresult
    rw [hresult]
    exact ⟨_, rfl⟩
  obtain ⟨hframe, -, -, hparameters, hsymbols, -⟩ := frame_layout hnames henter
  have hplaces : parameterPlaces ["key", "", "weight"] 1 0 insertFields = [(1, "key", "J"),
      (3, "arg1", "[[Lp/Node;"), (4, "weight", "D"), (6, "arg3", "I")] := by decide +kernel
  have hclass : Descriptor.ofClass "p/Tree" = "Lp/Tree;" := by decide +kernel
  refine ⟨s, hnames, hdescriptor, henter, ?_, ?_, hsymbols⟩
  · rw [hframe, hclass]
    exact congrArg ((0, "this", "Lp/Tree;") :: ·) hplaces
  · rw [hparameters]
    exact hplaces

end PathState

end PathWitness
