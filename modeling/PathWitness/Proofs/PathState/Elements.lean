import PathWitness.Proofs.Number.Numeral
import PathWitness.Proofs.PathState.Anchored

/-!
# The Elements of an Array

The elements of an array are created one by one, when they are first read. The
index that was read becomes the key of the slot and a part of the origin of the
symbol, as it was written. So a slot is found again under the same text only, and
it is the text that tells elements apart.

An index can be written in several ways, since a sign and zeros in front of the
digits do not change the number. What is left without them does:
`eq_iff_significantDigits` says that two indices are the same number if and only if
their significant digits are the same. Indices that are written in the usual way
therefore name different slots only if they are different numbers, and the other
spellings are where one element gets several symbols.

## Main definitions

* `significantDigits`: An index without its sign and the zeros in front.
* `isUsual`: An index as numbers are usually written.
* `HeapObject.Stocked`: An object has slots that its type offers, each once.

## Theorems

* `eq_iff_significantDigits`: When two indices are the same number.
* `Change.stocked`: A change of a state.
* `stocked_of_follows`: Every state of a path that starts at an entry.
* `elements_by_spelling`: The elements of an array are told apart by their text.
-/

namespace PathWitness

/-- An index without its sign and the zeros in front. -/
def significantDigits (i : String) : List Char :=
  (Number.splitSign i.toList).2.dropWhile (· == '0')

/-- An index as numbers are usually written. -/
def isUsual (i : String) : Bool :=
  i == "0" || significantDigits i == i.toList

section Numerals

open Number

/-- The number of an index that is not negative is the number of its significant
    digits. A minus can stand in front of zeros only. -/
theorem significantDigits_spec {i : String} {m : Int} (h : parseDecimal32 i.toList = some m)
    (hm : 0 ≤ m) : (∀ c ∈ significantDigits i, isDigit c = true) ∧
      (significantDigits i).head? ≠ some '0' ∧
      m = Nat.ofDigitChars 10 (significantDigits i) 0 := by
  unfold significantDigits
  rw [parseDecimal32] at h
  rcases hsign : splitSign i.toList with ⟨negative, digits⟩
  rw [hsign] at h
  simp only at h ⊢
  by_cases hdigits : (digits.isEmpty || !digits.all isDigit) = true
  · rw [if_pos hdigits] at h
    cases h
  · rw [if_neg hdigits] at h
    have hall : ∀ c ∈ digits, isDigit c = true := by
      simp only [Bool.or_eq_true, Bool.not_eq_true', not_or, Bool.not_eq_false] at hdigits
      exact List.all_eq_true.1 hdigits.2
    rw [readDigits_of_digits hall] at h
    refine ⟨fun c hc => hall c ((List.dropWhile_suffix _).subset hc), fun hhead => ?_, ?_⟩
    · have hnot := List.head?_dropWhile_not (· == '0') digits
      rw [hhead] at hnot
      exact absurd hnot (by decide)
    · rw [ofDigitChars_dropWhile]
      cases negative with
      | false => exact (Option.some.inj (Option.ite_none_right_eq_some.1 h).2).symm
      | true =>
          have hminus : -(Nat.ofDigitChars 10 digits 0 : Int) = m :=
            Option.some.inj (Option.ite_none_right_eq_some.1 h).2
          omega

/-- When two indices are the same number. -/
theorem eq_iff_significantDigits {i j : String} {m n : Int}
    (hi : parseDecimal32 i.toList = some m) (hj : parseDecimal32 j.toList = some n) (hm : 0 ≤ m)
    (hn : 0 ≤ n) : m = n ↔ significantDigits i = significantDigits j := by
  obtain ⟨hdigits, hhead, rfl⟩ := significantDigits_spec hi hm
  obtain ⟨hdigits', hhead', rfl⟩ := significantDigits_spec hj hn
  rw [Int.natCast_inj]
  exact ⟨eq_of_ofDigitChars hdigits hdigits' hhead hhead', fun heq => by rw [heq]⟩

/-- Numbers that are usually written differ if their texts do. -/
theorem eq_of_isUsual {i j : String} {m n : Int} (hi : parseDecimal32 i.toList = some m)
    (hj : parseDecimal32 j.toList = some n) (hm : 0 ≤ m) (hn : 0 ≤ n) (husual : isUsual i = true)
    (husual' : isUsual j = true) (h : m = n) : i = j := by
  have hsame := (eq_iff_significantDigits hi hj hm hn).1 h
  -- There is no number without digits.
  have hempty : ∀ {i : String} {m : Int}, parseDecimal32 i.toList = some m →
      significantDigits i = [] → isUsual i = true → i = "0" := by
    intro i m hi hnone husual
    rcases Bool.or_eq_true_iff.1 husual with hzero | hself
    · exact beq_iff_eq.1 hzero
    · rw [← beq_iff_eq.1 hself, hnone] at hi
      cases hi
  by_cases hnone : significantDigits i = []
  · rw [hempty hi hnone husual, hempty hj (hsame ▸ hnone) husual']
  · have hself : ∀ {i : String}, significantDigits i ≠ [] → isUsual i = true →
        significantDigits i = i.toList := by
      intro i hne husual
      rcases Bool.or_eq_true_iff.1 husual with hzero | hself
      · rw [beq_iff_eq.1 hzero] at hne
        exact absurd (by decide) hne
      · exact beq_iff_eq.1 hself
    rw [← String.toList_inj, ← hself hnone husual, ← hself (hsame ▸ hnone) husual', hsame]

theorem isElementIndex_iff {i : String} : PathState.isElementIndex i = true ↔
    ∃ n, parseDecimal32 i.toList = some n ∧ 0 ≤ n := by
  unfold PathState.isElementIndex
  cases parseDecimal32 i.toList with
  | none => simp
  | some n => simp

end Numerals

section Slots

variable {key k : String} {v w : Option Value} {slots : List (String × Option Value)}

theorem mem_putSlot (h : (k, w) ∈ putSlot key v slots) :
    (k = key ∧ w = v) ∨ (k, w) ∈ slots := by
  induction slots with
  | nil => exact .inl (Prod.mk.inj (List.mem_singleton.1 h))
  | cons e rest ih =>
      unfold putSlot at h
      by_cases he : e.1 = key
      · rw [if_pos he] at h
        rcases List.mem_cons.1 h with heq | hrest
        · exact .inl (Prod.mk.inj heq)
        · exact .inr (List.mem_cons_of_mem e hrest)
      · rw [if_neg he] at h
        rcases List.mem_cons.1 h with heq | hrest
        · exact .inr (heq ▸ List.mem_cons_self)
        · exact (ih hrest).imp_right (List.mem_cons_of_mem e)

/-- Writing leaves every key once. -/
theorem nodup_putSlot (h : (slots.map (·.1)).Nodup) : ((putSlot key v slots).map (·.1)).Nodup := by
  induction slots with
  | nil => exact List.nodup_singleton _
  | cons e rest ih =>
      obtain ⟨hnew, hrest⟩ := List.nodup_cons.1 h
      unfold putSlot
      by_cases he : e.1 = key
      · rw [if_pos he, List.map_cons, ← he]
        exact h
      · rw [if_neg he, List.map_cons]
        refine List.nodup_cons.2 ⟨fun hmem => ?_, ih hrest⟩
        obtain ⟨⟨k, w⟩, hkw, hk⟩ := List.mem_map.1 hmem
        rcases mem_putSlot hkw with ⟨hkey, -⟩ | hold
        · exact he (hk.symm.trans hkey)
        · exact hnew (List.mem_map.2 ⟨_, hold, hk⟩)

end Slots

theorem Value.ofSymbol_inj {x y : Symbol} (h : ofSymbol x = ofSymbol y) : x = y := by
  cases x <;> cases y <;> cases h <;> rfl

/-- An object has slots that its type offers, each once, and a slot holds the symbol
    that the table has at the origin of the slot. -/
structure HeapObject.Stocked (classes : ClassTable) (t : SymbolTable) (o : HeapObject) : Prop where
  keys : o.keys.Nodup
  slots : ∀ key v, (key, v) ∈ o.slots → o.origin.isEmpty = false ∧
    ∃ a x, Offers classes o.type a ∧ a.slot? = some key ∧ v = some (.ofSymbol x) ∧
      t.find? (o.origin.push a) = some x

/-- All objects of a path have slots that their types offer. -/
def PathState.Stocked (classes : ClassTable) (s : PathState) : Prop :=
  ∀ p o, s.heap.get? p = some o → o.Stocked classes s.symbols

namespace HeapObject

variable {classes : ClassTable} {t t' : SymbolTable} {o o' : HeapObject}

theorem Stocked.blank (type : String) (origin : Origin) (length : Option Term) :
    Stocked classes t ⟨type, origin, length, []⟩ :=
  ⟨List.nodup_nil, fun _ _ hslot => absurd hslot List.not_mem_nil⟩

theorem Stocked.mono (ht : t.symbols <+: t'.symbols) (h : o.Stocked classes t) :
    o.Stocked classes t' := by
  refine ⟨h.keys, fun key v hslot => ?_⟩
  obtain ⟨hnamed, a, x, hoffers, hkey, hv, hfind⟩ := h.slots key v hslot
  exact ⟨hnamed, a, x, hoffers, hkey, hv, SymbolTable.find?_mono ht hfind⟩

/-- A slot that the type offers gets the symbol at its origin. -/
theorem Stocked.set {a : Accessor} {x : Symbol} (h : o.Stocked classes t)
    (hnamed : o.origin.isEmpty = false) (hoffers : Offers classes o.type a)
    (hfind : t.find? (o.origin.push a) = some x) (hset : o.set a (some (.ofSymbol x)) = .ok o') :
    o'.Stocked classes t := by
  obtain ⟨key, hkey, rfl⟩ := set_spec hset
  refine ⟨nodup_putSlot h.keys, fun k v hslot => ?_⟩
  rcases mem_putSlot hslot with ⟨rfl, rfl⟩ | hold
  · exact ⟨hnamed, a, x, hoffers, hkey.1, rfl, hfind⟩
  · exact h.slots k v hold

/-- The slots of an array are elements. -/
theorem Stocked.element {key : String} {v : Option Value} (h : o.Stocked classes t)
    (harray : o.isArray = true) (hslot : (key, v) ∈ o.slots) :
    ∃ i x, key = "[" ++ i ++ "]" ∧ PathState.isElementIndex i = true ∧ v = some (.ofSymbol x) ∧
      o.origin.isEmpty = false ∧ t.find? (o.origin.push (.index i)) = some x := by
  obtain ⟨hnamed, a, x, hoffers, hkey, hv, hfind⟩ := h.slots key v hslot
  cases hoffers with
  | field hobject hf => exact absurd (hobject.symm.trans harray) Bool.false_ne_true
  | element _ hi => exact ⟨_, x, (Option.some.inj hkey).symm, hi, hv, hnamed, hfind⟩

end HeapObject

section Paths

variable {classes : ClassTable} {may : PathState → Term → Prop} {s s' : PathState}

/-- A change leaves objects with slots that their types offer. -/
theorem Change.stocked (h : Change classes may s s') (hs : s.Stocked classes) :
    s'.Stocked classes := by
  -- An object that is added has no slots.
  have hallocate : ∀ {t : SymbolTable} {heap : Heap} {type : String} {origin : Origin}
      {length : Option Term}, s.symbols.symbols <+: t.symbols →
      heap = (s.heap.allocate ⟨type, origin, length, []⟩).2 →
      ∀ p o, heap.get? p = some o → o.Stocked classes t := by
    intro t heap type origin length ht hheap p o ho
    rw [hheap] at ho
    rcases Heap.get?_allocate.1 ho with hold | ⟨-, rfl⟩
    · exact (hs p o hold).mono ht
    · exact .blank type origin length
  cases h with
  | @written p o o' a x t hobject hnamed hoffers hsupplies hset hkept hmember =>
      intro q o₁ ho₁
      rw [Heap.get?_replace hobject] at ho₁
      by_cases hq : q = p
      · rw [if_pos hq] at ho₁
        obtain rfl := Option.some.inj ho₁
        exact ((hs p o hobject).mono hsupplies.grows).set hnamed hoffers hsupplies.find? hset
      · rw [if_neg hq] at ho₁
        exact (hs q o₁ ho₁).mono hsupplies.grows
  | assumed hmay hgrown => exact hs
  | settled href hold hfits hgrown => exact hs
  | object href harray hsub hgrown => exact hallocate (List.prefix_refl _) rfl
  | array href harray hsub hsupplies hint hgrown => exact hallocate hsupplies.grows rfl
  | thrown type target => exact hallocate (List.prefix_refl _) rfl
  | noted id status returned hstatus => exact hs

theorem stocked_respects (k : Conduct) :
    Respects k fun u v => u.state.Stocked k.classes → v.state.Stocked k.classes :=
  .ofFired
    { refl := fun _ hu => hu
      trans := fun huv hvw hu => hvw (huv hu)
      change := fun _ hchange hu => hchange.stocked hu
      told := fun _ _ hu => hu }
    fun _ _ _ _ _ _ _ _ _ hu => hu

/-- In every state of a path that starts at the entry of a method, objects have slots
    that their types offer. -/
theorem stocked_of_follows {k : Conduct} {signature : Signature} {isStatic : Bool}
    {names : List String} {j : Journal} {u : Session}
    (h : PathState.enter signature isStatic names = .ok s) (hfollows : Follows k ⟨s, j⟩ u) :
    u.state.Stocked k.classes := by
  have hentry : s.Stocked k.classes := by
    intro p o ho
    rw [(PathState.enter_blank h).2.1] at ho
    have hnone : (({} : Heap).get? p).isSome = true := by rw [ho, Option.isSome_some]
    have hsize := Heap.get?_isSome_iff.1 hnone
    exact absurd (hsize.1.trans hsize.2) (by decide)
  exact (hfollows.under (stocked_respects k) (PathState.enter_coherent k.classes h)).2 hentry

/-- The elements of an array are told apart by the text of their indices. Every slot
    of an array holds the symbol of an element. Two elements have the same symbol if
    and only if their indices are written alike, and their indices are the same number
    if and only if they have the same significant digits. -/
theorem elements_by_spelling {k : Conduct} {signature : Signature} {isStatic : Bool}
    {names : List String} {journal : Journal} {u : Session} {p : Int} {o : HeapObject}
    (henter : PathState.enter signature isStatic names = .ok s)
    (hfollows : Follows k ⟨s, journal⟩ u) (hobject : u.state.heap.get? p = some o)
    (harray : o.isArray = true) :
    o.keys.Nodup ∧
    (∀ key v, (key, v) ∈ o.slots → ∃ i n x, key = "[" ++ i ++ "]" ∧
      Number.parseDecimal32 i.toList = some n ∧ 0 ≤ n ∧ v = some (.ofSymbol x)) ∧
    ∀ i j m n x y, ("[" ++ i ++ "]", some (.ofSymbol x)) ∈ o.slots →
      ("[" ++ j ++ "]", some (.ofSymbol y)) ∈ o.slots →
      Number.parseDecimal32 i.toList = some m → Number.parseDecimal32 j.toList = some n →
      (x = y ↔ i = j) ∧ (m = n ↔ significantDigits i = significantDigits j) ∧
        (isUsual i = true → isUsual j = true → (x = y ↔ m = n)) := by
  have hstocked := stocked_of_follows henter hfollows p o hobject
  -- The symbol in the slot of an index is the one that the table has for the element.
  have hfound : ∀ {i : String} {m : Int} {x : Symbol},
      ("[" ++ i ++ "]", some (.ofSymbol x)) ∈ o.slots → Number.parseDecimal32 i.toList = some m →
      0 ≤ m ∧ o.origin.isEmpty = false ∧
        u.state.symbols.find? (o.origin.push (.index i)) = some x := by
    intro i m x hslot hi
    obtain ⟨i', x', hkey, hindex, hvalue, hnamed, hfind⟩ := hstocked.element harray hslot
    obtain rfl : i = i' := by simpa using hkey
    obtain rfl : x = x' := Value.ofSymbol_inj (Option.some.inj hvalue)
    obtain ⟨n, hn, hpos⟩ := isElementIndex_iff.1 hindex
    obtain rfl := Option.some.inj (hi.symm.trans hn)
    exact ⟨hpos, hnamed, hfind⟩
  refine ⟨hstocked.keys, fun key v hslot => ?_, fun i j m n x y hslot hslot' hi hj => ?_⟩
  · obtain ⟨i, x, hkey, hi, hvalue, -⟩ := hstocked.element harray hslot
    obtain ⟨n, hn, hpos⟩ := isElementIndex_iff.1 hi
    exact ⟨i, n, x, hkey, hn, hpos, hvalue⟩
  · obtain ⟨hpos, hnamed, hfind⟩ := hfound hslot hi
    obtain ⟨hpos', -, hfind'⟩ := hfound hslot' hj
    have hsymbol : x = y ↔ i = j := by
      constructor
      · rintro rfl
        have htext := SymbolTable.text_of_find? hfind
        rw [SymbolTable.text_of_find? hfind', Origin.text_push hnamed, Origin.text_push hnamed]
          at htext
        simpa [Accessor.text] using htext.symm
      · rintro rfl
        exact Option.some.inj (hfind.symm.trans hfind')
    refine ⟨hsymbol, eq_iff_significantDigits hi hj hpos hpos', fun husual husual' => ?_⟩
    rw [hsymbol]
    refine ⟨fun heq => ?_, eq_of_isUsual hi hj hpos hpos' husual husual'⟩
    rw [heq, hj] at hi
    exact (Option.some.inj hi).symm

/-- One element of an array was read under two spellings of its index. -/
def respelledSession : Session :=
  let u := ((nodeEnvironment.resolve ⟨1, "[I", .ofRoot "keys"⟩ (.expand "")).runOn
    ⟨searchEntry, []⟩).2
  let s := ((PathState.lookup ⟨"keys", [.index "1"]⟩).runOn u.state).2
  ⟨((PathState.lookup ⟨"keys", [.index "01"]⟩).runOn s).2, u.journal⟩

/-- The array of that path. -/
def respelledArray : HeapObject where
  type := "[I"
  origin := .ofRoot "keys"
  length := some (.symbol ⟨2, .int, ⟨"keys", [.length]⟩⟩)
  slots := [("[1]", some (.ofSymbol (.prim ⟨3, .int, ⟨"keys", [.index "1"]⟩⟩))),
    ("[01]", some (.ofSymbol (.prim ⟨4, .int, ⟨"keys", [.index "01"]⟩⟩)))]

theorem respelledSession_follows :
    Follows (Conduct.ownSymbols nodeClasses) ⟨searchEntry, []⟩ respelledSession := by
  have hexpanded := Follows.resolve_node ⟨1, "[I", .ofRoot "keys"⟩ (.expand "")
    (.refl ⟨searchEntry, []⟩) (by decide)
  exact .lookup ⟨"keys", [.index "01"]⟩ (.lookup ⟨"keys", [.index "1"]⟩ hexpanded)

theorem respelledSession_array : respelledSession.state.heap.get? 1 = some respelledArray := by
  rfl

theorem elements_by_spelling_respelled :
    PathState.enter searchMethod true ["list", "keys"] = .ok searchEntry ∧
      Follows (Conduct.ownSymbols nodeClasses) ⟨searchEntry, []⟩ respelledSession ∧
      respelledSession.state.heap.get? 1 = some respelledArray ∧ respelledArray.isArray = true ∧
      respelledArray.keys.Nodup ∧
      (∀ key v, (key, v) ∈ respelledArray.slots → ∃ i n x, key = "[" ++ i ++ "]" ∧
        Number.parseDecimal32 i.toList = some n ∧ 0 ≤ n ∧ v = some (.ofSymbol x)) ∧
      ((1 : Int) = 1 ↔ significantDigits "1" = significantDigits "01") := by
  obtain ⟨hkeys, hslots, hspelling⟩ :=
    elements_by_spelling enter_search respelledSession_follows respelledSession_array rfl
  refine ⟨enter_search, respelledSession_follows, respelledSession_array, rfl, hkeys, hslots, ?_⟩
  exact (hspelling "1" "01" 1 1 _ _ List.mem_cons_self
    (List.mem_cons_of_mem _ List.mem_cons_self) (by decide +kernel) (by decide +kernel)).2.1

/-- One element of an array has two symbols. -/
theorem element_with_two_symbols :
    PathState.enter searchMethod true ["list", "keys"] = .ok searchEntry ∧
      Follows (Conduct.ownSymbols nodeClasses) ⟨searchEntry, []⟩ respelledSession ∧
      ∃ o i j x y, respelledSession.state.heap.get? 1 = some o ∧ o.isArray = true ∧
        ("[" ++ i ++ "]", some (.ofSymbol x)) ∈ o.slots ∧
        ("[" ++ j ++ "]", some (.ofSymbol y)) ∈ o.slots ∧
        Number.parseDecimal32 i.toList = Number.parseDecimal32 j.toList ∧ i ≠ j ∧ x ≠ y :=
  ⟨enter_search, respelledSession_follows, respelledArray, "1", "01", _, _, respelledSession_array,
    rfl, List.mem_cons_self, List.mem_cons_of_mem _ List.mem_cons_self, by decide +kernel,
    by decide, by decide⟩

end Paths

end PathWitness
