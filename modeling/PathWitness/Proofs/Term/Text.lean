import PathWitness.Proofs.SymbolTable
import PathWitness.Proofs.Term.Exact
import PathWitness.Proofs.Term.Reading
import PathWitness.Search.Cache

/-!
# What the Text of a Term Tells

Answers are remembered under the text of the conditions they answer, so the text
has to tell all that decides whether a model makes the conditions true. Texts are
read in one way, and what remains to be shown is that the reading determines the
value.

Two things could go wrong. Constants of the types up to `int` read alike, but no
operator tells them apart, because operands are promoted and conversions name the
type they convert from. Symbols read alike if they have the same number. This is
where they have to come from one table: there a number belongs to one symbol, and
so to one type.

## Main definitions

* `Term.reading`: The reading of a term.
* `Prim.promoted`: A type as far as it matters for an operand.
* `Reading.exact`: The value that a reading determines.
* `SymbolTable.Made`: A table that comes from requests for symbols.
* `Term.IntegralOver`: A term that is built from symbols of a table.
* `Model.values`: The numbers that symbols stand for in a model.

## Theorems

* `Term.toList_text`: The text of a term is the text of its reading.
* `Term.exact_reading`: The value of a term is that of its reading.
* `Model.satisfies_iff_reading`: Readings decide which models satisfy conditions.
* `Model.satisfies_iff_of_key`: Lists of conditions with one text are satisfied by
  the same models.
-/

namespace PathWitness

/-- A type as far as it matters for an operand: types narrower than `int` are
    `int`. -/
def Prim.promoted (p : Prim) : Prim :=
  if p = boolean then boolean else promote p p

theorem Prim.bits_promoted (p : Prim) : p.promoted.bits = p.bits := by
  cases p <;> rfl

theorem Prim.promoted_eq_boolean {p : Prim} : p.promoted = boolean ↔ p = boolean := by
  cases p <;> decide

theorem UnaryOperator.resultType_promoted (op : UnaryOperator) (p : Prim) :
    (op.resultType p).promoted = op.resultType p.promoted := by
  cases op <;> cases p <;> rfl

theorem BinaryOperator.resultType_promoted (op : BinaryOperator) (p q : Prim) :
    (op.resultType p q).promoted = op.resultType p.promoted q.promoted := by
  cases op <;> cases p <;> cases q <;> rfl

theorem UnaryOperator.exact_promoted (op : UnaryOperator) (p : Prim) (x : Int) :
    op.exact p.promoted x = op.exact p x := by
  simp only [exact, p.bits_promoted]

theorem BinaryOperator.exact_promoted (op : BinaryOperator) (p q : Prim) (x y : Int) :
    op.exact p.promoted q.promoted x y = op.exact p q x y := by
  simp only [exact, p.bits_promoted, q.bits_promoted, Prim.promoted_eq_boolean]

/-- The type of a number. -/
def Reading.numberType (long : Bool) : Prim :=
  if long then .long else .int

/-- The reading of a number. A negative one reads like a negation. -/
def Reading.signed (v : Int) (long : Bool) : Reading :=
  if v < 0 then .unary .neg (.number v.natAbs long) else .number v.natAbs long

/-- The reading of a constant. -/
def Const.reading (c : Const) : Reading :=
  match c with
  | boolean b => .truth b
  | c => .signed c.value (c.type = .long)

/-- The reading of a term. Named functions are not read. -/
def Term.reading : Term → Reading
  | .const c => c.reading
  | .symbol s => .symbol s.number
  | .unary op arg => .unary op arg.reading
  | .binary op left right =>
    .binary (.of op (op.resultType left.type right.type)) left.reading right.reading
  | .convert direction dest arg => .convert direction arg.type dest arg.reading
  | .apply _ _ _ => .truth false

theorem Reading.chars_signed (v : Int) (long : Bool) :
    (signed v long).chars = (toString v).toList ++ mark long := by
  unfold signed
  cases v with
  | ofNat n =>
      have hn : ¬ Int.ofNat n < 0 := Int.not_lt.2 (Int.natCast_nonneg n)
      rw [if_neg hn]
      exact congrArg (· ++ mark long) Nat.toList_repr.symm
  | negSucc n =>
      rw [if_pos (Int.negSucc_lt_zero n)]
      show _ = ("-" ++ (n + 1).repr).toList ++ mark long
      rw [String.toList_append, Nat.toList_repr]
      rfl

/-- A constant is a truth value, or it is written as a number that may be marked. -/
theorem Const.reading_cases {c : Const} (hc : c.type.isIntegral = true) :
    (∃ b, c = boolean b) ∨
    ∃ long, c.reading = .signed c.value long ∧
      c.text.toList = (toString c.value).toList ++ Reading.mark long ∧
      c.type.promoted = Reading.numberType long := by
  cases c with
  | boolean b => exact .inl ⟨b, rfl⟩
  | byte v => exact .inr ⟨false, rfl, (List.append_nil _).symm, rfl⟩
  | char v => exact .inr ⟨false, rfl, (List.append_nil _).symm, rfl⟩
  | short v => exact .inr ⟨false, rfl, (List.append_nil _).symm, rfl⟩
  | int v => exact .inr ⟨false, rfl, (List.append_nil _).symm, rfl⟩
  | long v => exact .inr ⟨true, rfl, String.toList_append, rfl⟩
  | float v => cases hc
  | double v => cases hc

theorem Const.toList_text {c : Const} (hc : c.type.isIntegral = true) :
    c.text.toList = c.reading.chars := by
  rcases Const.reading_cases hc with ⟨b, rfl⟩ | ⟨long, hreading, htext, -⟩
  · cases b <;> rfl
  · rw [hreading, htext, Reading.chars_signed]

/-- The text of a term is the text of its reading. -/
theorem Term.toList_text : ∀ {t : Term}, t.IsIntegral → t.text.toList = t.reading.chars
  | .const c, hc => c.toList_text hc
  | .symbol s, _ => by
      simp only [text, PrimSymbol.id, PrimSymbol.idOf, String.toList_append, Nat.toString_eq_repr,
        Nat.toList_repr]
      rfl
  | .unary op arg, ⟨_, harg⟩ => by
      rw [text, String.toList_append, toList_text harg]
      rfl
  | .binary op left right, ⟨_, hleft, hright⟩ => by
      simp only [text, String.toList_append, toList_text hleft, toList_text hright,
        List.append_assoc]
      rfl
  | .convert direction dest arg, ⟨_, harg⟩ => by
      simp only [text, String.toList_append, toList_text harg, Prim.descriptor,
        String.toList_ofList, List.append_assoc]
      rfl

theorem intercalate_cons (separator a : List Char) (l : List (List Char)) :
    separator.intercalate (a :: l) = a ++ l.flatMap (separator ++ ·) := by
  induction l generalizing a with
  | nil => rfl
  | cons b l ih =>
      rw [List.intercalate_cons_cons, ih, List.flatMap_cons, List.append_assoc, List.append_assoc]

/-- The text of a list of conditions is the text of their readings. -/
theorem toList_conditionKey {ts : List Term} (hts : ∀ t ∈ ts, t.IsIntegral) :
    (conditionKey (ts.map some)).toList = Reading.joined (ts.map Term.reading) := by
  have htexts : ∀ t ∈ ts, t.text.toList = t.reading.chars := fun t ht => Term.toList_text (hts t ht)
  rw [conditionKey, String.toList_intercalate, List.map_map, List.map_map]
  show " && ".toList.intercalate (ts.map fun t => t.text.toList) = _
  rw [List.map_congr_left htexts]
  cases ts with
  | nil => rfl
  | cons t ts =>
      rw [List.map_cons, intercalate_cons, List.flatMap_map]
      simp only [List.map_cons, Reading.joined, Reading.following, List.flatMap_map]

/-- The primitive symbol with a number. -/
def SymbolTable.numbered? (table : SymbolTable) (n : Nat) : Option PrimSymbol :=
  match table.symbols[n]? with
  | some (.prim s) => some s
  | _ => none

namespace Reading

/-- The type that a reading determines, where types narrower than `int` count as
    `int`. -/
def type (table : SymbolTable) : Reading → Prim
  | truth _ => .boolean
  | number _ long => numberType long
  | symbol n => (table.numbered? n).elim .int fun s => s.type.promoted
  | unary op arg => op.resultType (arg.type table)
  | binary sign left right =>
    sign.operator?.elim .int fun op => op.resultType (left.type table) (right.type table)
  | convert _ _ dest _ => dest.promoted

/-- The value that a reading determines, where `values` gives the numbers that the
    symbols of a table stand for. -/
def exact {ε : Type} (table : SymbolTable) (values : PrimSymbol → Except ε Int) :
    Reading → Option Int
  | truth b => some (if b then 1 else 0)
  | number n long => some ((n : Int).bmod (2 ^ (numberType long).bits))
  | symbol n => do (values (← table.numbered? n)).toOption
  | unary op arg => do
    return op.exact (arg.type table) (← arg.exact table values)
  | binary sign left right => do
    let op ← sign.operator?
    let x ← left.exact table values
    let y ← right.exact table values
    op.exact (left.type table) (right.type table) x y
  | convert _ _ dest arg => do
    return Exact.cast dest (← arg.exact table values)

end Reading

/-- A table that comes from requests for symbols. -/
inductive SymbolTable.Made : SymbolTable → Prop where
  | empty : Made {}
  | primitive {t t' : SymbolTable} {descriptor : String} {o : Origin} {s : PrimSymbol}
    (ht : Made t) (h : t.primitive descriptor o = .ok (s, t')) : Made t'
  | reference {t t' : SymbolTable} {descriptor : String} {o : Origin} {s : RefSymbol}
    (ht : Made t) (h : t.reference descriptor o = .ok (s, t')) : Made t'

theorem SymbolTable.Made.wellFormed {t : SymbolTable} (h : t.Made) : t.WellFormed := by
  induction h with
  | empty => exact .empty
  | primitive ht h ih => exact (primitive_supplies h).1.wellFormed ih
  | reference ht h ih => exact (reference_supplies h).wellFormed ih

/-- A symbol of a table is found by its number. -/
theorem SymbolTable.WellFormed.numbered?_number {t : SymbolTable} (ht : t.WellFormed)
    {s : PrimSymbol} (hs : .prim s ∈ t.symbols) : t.numbered? s.number = some s := by
  obtain ⟨i, hi⟩ := List.mem_iff_getElem?.1 hs
  have hnumber : s.number = i := ht.numbered i _ hi
  simp only [numbered?, hnumber, hi]

/-- All symbols of the term are symbols of a table. -/
def Term.DrawnFrom (table : SymbolTable) (t : Term) : Prop :=
  ∀ s ∈ t.occurrences, Symbol.prim s ∈ table.symbols

theorem Term.DrawnFrom.symbol {table : SymbolTable} {s : PrimSymbol}
    (h : (Term.symbol s).DrawnFrom table) : Symbol.prim s ∈ table.symbols :=
  h s (List.mem_singleton_self s)

theorem Term.DrawnFrom.binary {table : SymbolTable} {op : BinaryOperator} {left right : Term}
    (h : (Term.binary op left right).DrawnFrom table) :
    left.DrawnFrom table ∧ right.DrawnFrom table :=
  ⟨fun s hs => h s (List.mem_append_left _ hs), fun s hs => h s (List.mem_append_right _ hs)⟩

/-- The term is built from symbols of a table, and all its parts are integral. -/
structure Term.IntegralOver (table : SymbolTable) (t : Term) : Prop where
  built : t.Built
  integral : t.IsIntegral
  drawn : t.DrawnFrom table

section Meaning

variable {ε : Type} {table : SymbolTable} {values : PrimSymbol → Except ε Int}

theorem Const.type_reading {c : Const} (hc : c.type.isIntegral = true) :
    c.reading.type table = c.type.promoted := by
  rcases Const.reading_cases hc with ⟨b, rfl⟩ | ⟨long, hreading, -, htype⟩
  · rfl
  · rw [hreading, htype, Reading.signed]
    cases long <;> split <;> rfl

/-- The type of a term is that of its reading, as far as it matters. -/
theorem Term.type_reading (htable : table.WellFormed) :
    ∀ {t : Term}, t.IsIntegral → t.DrawnFrom table → t.reading.type table = t.type.promoted
  | .const c, hc, _ => c.type_reading hc
  | .symbol s, _, hdrawn => by
      simp only [reading, Reading.type, htable.numbered?_number hdrawn.symbol, Option.elim_some,
        type]
  | .unary op arg, ⟨_, harg⟩, hdrawn => by
      have ih := type_reading htable harg hdrawn
      simp only [reading, Reading.type, ih, type, op.resultType_promoted]
  | .binary op left right, ⟨_, hleft, hright⟩, hdrawn => by
      have ihl := type_reading htable hleft hdrawn.binary.1
      have ihr := type_reading htable hright hdrawn.binary.2
      simp only [reading, Reading.type, Sign.operator?_of, Option.elim_some, ihl, ihr, type,
        op.resultType_promoted]
  | .convert direction dest arg, _, _ => rfl

/-- A number is what it wraps around to at its type. -/
theorem Const.bmod_value {c : Const} (hc : c.type.isIntegral = true) :
    c.value.bmod (2 ^ c.type.bits) = c.value := by
  by_cases hlong : c.type = .long
  · rw [Prim.bits, if_pos hlong]
    exact Int64.toInt_bmod _
  · rw [Prim.bits, if_neg hlong, value, ← toInt32_toInt64 hc hlong, Int32.toInt_toInt64]
    exact Int32.toInt_bmod _

theorem toOption_bind {ε α β : Type} (x : Except ε α) (f : α → Except ε β) :
    (x >>= f).toOption = x.toOption >>= fun a => (f a).toOption := by
  cases x <;> rfl

theorem Const.exact_reading {c : Const} (hc : c.type.isIntegral = true) :
    c.reading.exact table values = some c.value := by
  rcases Const.reading_cases hc with ⟨b, rfl⟩ | ⟨long, hreading, -, htype⟩
  · exact congrArg some (value_boolean b).symm
  · have hwrap : c.value.bmod (2 ^ (Reading.numberType long).bits) = c.value := by
      rw [← htype, Prim.bits_promoted, c.bmod_value hc]
    rw [hreading, Reading.signed]
    split
    · -- The number without its sign may be too large, but its negation is not.
      have hsize : -(c.value.natAbs : Int) = c.value := by omega
      show some ((-(c.value.natAbs : Int).bmod (2 ^ (Reading.numberType long).bits)).bmod
        (2 ^ (Reading.numberType long).bits)) = _
      rw [Int.bmod_neg_bmod, hsize, hwrap]
    · have hsize : (c.value.natAbs : Int) = c.value := by omega
      show some ((c.value.natAbs : Int).bmod _) = _
      rw [hsize, hwrap]

/-- The value of a term is that of its reading. -/
theorem Term.exact_reading (htable : table.WellFormed) :
    ∀ {t : Term}, t.IsIntegral → t.DrawnFrom table →
      (t.exact values).toOption = t.reading.exact table values
  | .const c, hc, _ => (c.exact_reading hc).symm
  | .symbol s, _, hdrawn => by
      simp only [exact, reading, Reading.exact, htable.numbered?_number hdrawn.symbol]
      show ((values s).mapError EvalError.lookup).toOption = (values s).toOption
      cases values s <;> rfl
  | .unary op arg, ⟨_, harg⟩, hdrawn => by
      have ih := exact_reading htable harg hdrawn
      have htype := type_reading htable harg hdrawn
      simp only [exact, reading, Reading.exact, toOption_bind, ih, htype, op.exact_promoted]
      rfl
  | .binary op left right, ⟨_, hleft, hright⟩, hdrawn => by
      have ihl := exact_reading htable hleft hdrawn.binary.1
      have ihr := exact_reading htable hright hdrawn.binary.2
      have htypel := type_reading htable hleft hdrawn.binary.1
      have htyper := type_reading htable hright hdrawn.binary.2
      simp only [exact, reading, Reading.exact, Sign.operator?_of, toOption_bind, ihl, ihr, htypel,
        htyper]
      cases left.reading.exact table values with
      | none => rfl
      | some x =>
          cases right.reading.exact table values with
          | none => rfl
          | some y =>
              refine Eq.trans ?_ (op.exact_promoted left.type right.type x y).symm
              simp only [Option.bind_eq_bind, Option.bind_some]
              cases op.exact left.type right.type x y <;> rfl
  | .convert direction dest arg, ⟨_, harg⟩, hdrawn => by
      have ih := exact_reading htable harg hdrawn
      simp only [exact, reading, Reading.exact, toOption_bind, ih]
      rfl

end Meaning

namespace Model

/-- The numbers that symbols stand for in a model. -/
def values (m : Model) (s : PrimSymbol) : Except MissingValue Int :=
  (m.lookup s).map fun c => (c.convert s.type).value

theorem gives_values (m : Model) : Gives m.lookup m.values :=
  fun _ _ => rfl

/-- A model makes a condition true if the condition has a value other than zero. -/
theorem fulfils_iff_exact (m : Model) {t : Term} (ht : t.WellTyped) (hint : t.IsIntegral) :
    m.Fulfils (some t) ↔ ∃ v, t.exact m.values = .ok v ∧ v ≠ 0 := by
  rw [← Term.eval_eq_exact m.gives_values t ht hint]
  constructor
  · rintro ⟨u, c, htu, hc, htrue⟩
    obtain rfl : t = u := Option.some.inj htu
    have htype := Term.type_of_eval ht hc
    rw [Const.toBool_eq (htype ▸ hint.type_isIntegral)] at htrue
    exact ⟨c.value, congrArg (Except.map Const.value) hc, of_decide_eq_true htrue⟩
  · rintro ⟨v, hv, hne⟩
    cases hc : t.eval m.lookup with
    | error e => rw [hc] at hv; cases hv
    | ok c =>
        rw [hc] at hv
        have htype := Term.type_of_eval ht hc
        refine ⟨t, c, rfl, hc, ?_⟩
        rw [Const.toBool_eq (htype ▸ hint.type_isIntegral), Except.ok.inj hv]
        exact decide_eq_true hne

/-- Whether a model makes conditions true depends on their readings alone. -/
theorem satisfies_iff_reading {table : SymbolTable} (htable : table.WellFormed) {ts : List Term}
    (hts : ∀ t ∈ ts, t.IntegralOver table) (m : Model) :
    m.Satisfies (ts.map some) ↔
      ∀ r ∈ ts.map Term.reading, ∃ v, r.exact table m.values = some v ∧ v ≠ 0 := by
  have hone : ∀ t ∈ ts, (m.Fulfils (some t) ↔
      ∃ v, t.reading.exact table m.values = some v ∧ v ≠ 0) := by
    intro t ht
    have hover := hts t ht
    rw [m.fulfils_iff_exact hover.built.wellTyped hover.integral,
      ← Term.exact_reading htable hover.integral hover.drawn]
    cases t.exact m.values <;> simp [Except.toOption]
  simp only [Satisfies, List.forall_mem_map]
  exact forall₂_congr hone

/-- Lists of integral conditions over one table that have the same text are
    satisfied by the same models. -/
theorem satisfies_iff_of_key {table : SymbolTable} (htable : table.Made) {ts us : List Term}
    (hts : ∀ t ∈ ts, t.IntegralOver table) (hus : ∀ u ∈ us, u.IntegralOver table)
    (hkey : conditionKey (ts.map some) = conditionKey (us.map some)) (m : Model) :
    m.Satisfies (ts.map some) ↔ m.Satisfies (us.map some) := by
  have hreadings : ts.map Term.reading = us.map Term.reading := by
    have hchars := congrArg String.toList hkey
    rw [toList_conditionKey fun t ht => (hts t ht).integral,
      toList_conditionKey fun u hu => (hus u hu).integral] at hchars
    exact Reading.joined_inj hchars
  rw [satisfies_iff_reading htable.wellFormed hts, satisfies_iff_reading htable.wellFormed hus,
    hreadings]

/-- A table with one symbol. -/
def onlyX : SymbolTable :=
  ⟨[.prim ⟨0, .int, .ofRoot "x"⟩]⟩

/-- The symbol of the table equals a term: `x == t`. -/
def equalsX (t : Term) : Term :=
  .binary (.comparison .eq) (.symbol ⟨0, .int, .ofRoot "x"⟩) t

/-- A constant of type `byte` and the negation of a constant of type `short` have
    the same text. -/
theorem satisfies_iff_of_key_negative :
    onlyX.Made ∧
    (equalsX (.const (.byte (-128)))).IntegralOver onlyX ∧
    (equalsX (.unary .neg (.const (.short 128)))).IntegralOver onlyX ∧
    equalsX (.const (.byte (-128))) ≠ equalsX (.unary .neg (.const (.short 128))) ∧
    conditionKey [some (equalsX (.const (.byte (-128))))]
      = conditionKey [some (equalsX (.unary .neg (.const (.short 128))))] ∧
    (empty.insert 0 (.int (-128))).Satisfies [some (equalsX (.const (.byte (-128))))] ∧
    (empty.insert 0 (.int (-128))).Satisfies
      [some (equalsX (.unary .neg (.const (.short 128))))] := by
  have htable : onlyX.Made := @SymbolTable.Made.primitive {} onlyX "I" (.ofRoot "x") _ .empty rfl
  have hbyte : (equalsX (.const (.byte (-128)))).IntegralOver onlyX :=
    ⟨.of_binary (.symbol _) (.const _) rfl, ⟨rfl, rfl, rfl⟩, by unfold Term.DrawnFrom; decide⟩
  have hneg : (Term.unary .neg (.const (.short 128))).Built :=
    @Term.Built.unary (.unary .neg) _ _ (.const (.short 128)) rfl
  have hshort : (equalsX (.unary .neg (.const (.short 128)))).IntegralOver onlyX :=
    ⟨.of_binary (.symbol _) hneg rfl, ⟨rfl, rfl, rfl, rfl⟩, by unfold Term.DrawnFrom; decide⟩
  have hkey : conditionKey ([equalsX (.const (.byte (-128)))].map some)
      = conditionKey ([equalsX (.unary .neg (.const (.short 128)))].map some) := by decide
  have hm : (empty.insert 0 (.int (-128))).Satisfies
      ([equalsX (.const (.byte (-128)))].map some) := by
    intro c hc
    obtain rfl := List.mem_singleton.1 hc
    exact ⟨_, .boolean true, rfl, rfl, rfl⟩
  refine ⟨htable, hbyte, hshort, nofun, hkey, hm, ?_⟩
  exact (satisfies_iff_of_key htable (fun t ht => List.mem_singleton.1 ht ▸ hbyte)
    (fun u hu => List.mem_singleton.1 hu ▸ hshort) hkey _).1 hm

end Model

end PathWitness
