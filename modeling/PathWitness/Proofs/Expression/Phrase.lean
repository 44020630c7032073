import PathWitness.Expression.Parse
import PathWitness.Proofs.Computation
import PathWitness.Proofs.Expression.Scanning

/-!
# Phrases

The reader of expressions has two stacks and no grammar. `Phrase` is the grammar: which
tokens stand for which term, where only operators that bind tighter than a level need no
parentheses. A left operand may hold operators of the level of its operator and a right
operand may not, which is grouping to the left; the operand of a unary operator may hold
no binary operator at all.

That the reader follows the grammar is an induction over phrases, for any stacks in
front of them, so long as what waits at the top binds no tighter than the level of the
phrase. The difficulty is what to say about the reader behind a phrase. It does not hold
the phrase's term on its stack yet, since an operator is applied when the next one
shows that no tighter one comes. `Ready` says instead that once the operators above a
level are applied, the reader is as if the term had been read at once. It is applied
where the next token makes the reader reduce its stacks.

## Main definitions

* `Leads`: Tokens that are the text of an origin.
* `Phrase`: Tokens that stand for a term.
* `Yields`: What waits leaves a phrase of a level alone.
* `Ready`: The reader behind a phrase.
* `Delivers`: Tokens take the reader to a term.

## Theorems

* `Leads.read`: The reader goes through the tokens of an origin.
* `Delivers.grouped`, `Delivers.unary`, `Delivers.binary`: Tokens that take the reader to
  terms can be put together.
* `Delivers.operator`: The reader behind a left operand and its operator.
* `Phrase.delivers`: A phrase takes the reader to its term.
* `Phrase.parse_eq`: A text whose tokens are a phrase is read as the term of the phrase.
-/

namespace PathWitness

namespace Expression

variable {ε : Type} {m : Type → Type} [Monad m] {lookup : Origin → m (Except ε (Option Value))}
  {level : Nat} {ts us : List Token} {path symbol : String} {op : Spelling} {a b t t' : Term}
  {c : Const} {s : Machine} {pending : List Pending} {values : List (Option Value)}

/-- The words that stand for values. -/
def valueWords : List String := ["true", "false", "null"]

/-- The tokens of the text of an origin. -/
inductive Leads : List Token → String → Prop where
  | root {name : String} (hname : name ∉ valueWords) : Leads [.ofWord name] name
  | field {ts : List Token} {path : String} (h : Leads ts path) (name : String) :
    Leads (ts ++ [.ofMark ".", .ofWord name]) (path ++ "." ++ name)
  | index {ts : List Token} {path : String} (h : Leads ts path) (i : String) :
    Leads (ts ++ [.ofMark "[", .ofNumeral i, .ofMark "]"]) (path ++ "[" ++ i ++ "]")

/-- Tokens that stand for a term where only operators that bind tighter than a level
    need no parentheses. -/
inductive Phrase (lookup : Origin → m (Except ε (Option Value))) :
    Nat → List Token → Term → Prop where
  | integer {level : Nat} {text : String} {c : Const}
    (hc : (integerConst text false : Except (ExprFault ε) Const) = .ok c) :
    Phrase lookup level [.ofNumeral text] (.const c)
  | long {level : Nat} {text : String} {c : Const}
    (hc : (integerConst text true : Except (ExprFault ε) Const) = .ok c) :
    Phrase lookup level [.ofNumeral text, .ofWord "L"] (.const c)
  | truth {level : Nat} (b : Bool) :
    Phrase lookup level [.ofWord (if b then "true" else "false")] (.const (.boolean b))
  | origin {level : Nat} {ts : List Token} {path : String} {o : Origin} {t : Term}
    (hpath : Leads ts path) (ho : Origin.parse path = .ok o)
    (ht : lookup o = pure (.ok (some (.term t)))) : Phrase lookup level ts t
  | grouped {level : Nat} {ts : List Token} {t : Term} (h : Phrase lookup 0 ts t) :
    Phrase lookup level (.ofMark "(" :: ts ++ [.ofMark ")"]) t
  | unary {level : Nat} {op : UnaryOperator} {ts : List Token} {t t' : Term}
    (h : Phrase lookup 9 ts t)
    (ht : (applyUnary op (some (.term t)) : Except (ExprFault ε) _) = .ok (some (.term t'))) :
    Phrase lookup level (.ofMark op.symbol :: ts) t'
  | binary {level : Nat} {op : Spelling} {symbol : String} {ts us : List Token} {a b t : Term}
    (hop : spelling? symbol = some op) (hlevel : level < op.level)
    (ha : Phrase lookup (op.level - 1) ts a) (hb : Phrase lookup op.level us b)
    (ht : (applyBinary op (some (.term a)) (some (.term b)) : Except (ExprFault ε) _)
      = .ok (some (.term t))) :
    Phrase lookup level (ts ++ .ofMark symbol :: us) t

/-- What waits has no claim on a value before operators that bind tighter than a
    level have been applied. -/
def Yields (level : Nat) : List Pending → Prop
  | .unary _ :: _ => 9 ≤ level
  | .binary op :: _ => op.level ≤ level
  | _ => True

theorem Yields.mono {level' : Nat} (h : Yields level pending) (hle : level ≤ level') :
    Yields level' pending := by
  match pending, h with
  | [], _ => trivial
  | .unary _ :: _, h => exact Nat.le_trans h hle
  | .binary _ :: _, h => exact Nat.le_trans h hle
  | .parenthesis :: _, _ => trivial

/-- The reader with a value in hand, after the unary operators that wait for it. -/
def taken (pending : List Pending) (values : List (Option Value)) (v : Option Value) :
    Except (ExprFault ε) Machine := do
  let (v, pending) ← applyUnaries v pending
  return ⟨pending, v :: values, .complete⟩

/-- Applies the waiting binary operators of at least a level. -/
def reduce (level : Nat) (s : Machine) :
    Except (ExprFault ε) (List Pending × List (Option Value)) :=
  applyBinaries level s.pending s.values

theorem taken_of_yields (h : Yields level pending) (hlevel : level < 9)
    (values : List (Option Value)) (v : Option Value) :
    (taken pending values v : Except (ExprFault ε) Machine)
      = .ok ⟨pending, v :: values, .complete⟩ := by
  match pending, h with
  | [], _ => rfl
  | .unary _ :: _, h => exact absurd h (Nat.not_le_of_lt hlevel)
  | .binary _ :: _, _ => rfl
  | .parenthesis :: _, _ => rfl

theorem applyBinaries_of_yields {k : Nat} (h : Yields level pending) (hk : level < k)
    (values : List (Option Value)) :
    (applyBinaries k pending values : Except (ExprFault ε) _) = .ok (pending, values) := by
  match pending, values, h with
  | [], _, _ => simp [applyBinaries]
  | .unary _ :: _, _, _ => simp [applyBinaries]
  | .binary _ :: _, [], _ => simp [applyBinaries]
  | .binary _ :: _, [_], _ => simp [applyBinaries]
  | .binary _ :: _, _ :: _ :: _, h =>
      simp [applyBinaries, Nat.not_le_of_lt (Nat.lt_of_le_of_lt h hk)]
  | .parenthesis :: _, _, _ => simp [applyBinaries]

/-- The mode of a reader that has read an operand. -/
def Mode.hasOperand : Mode → Bool
  | .complete | .integer _ | .floating _ | .origin _ => true
  | _ => false

/-- The reader is left with a value for those who wait, once the operators that bind
    tighter than a level have been applied. -/
def Ready (lookup : Origin → m (Except ε (Option Value))) (level : Nat) (s : Machine)
    (pending : List Pending) (values : List (Option Value)) (t : Term) : Prop :=
  s.mode.hasOperand = true ∧ ∃ r : Except (ExprFault ε) Machine,
    s.settle lookup = ExceptT.mk (pure r) ∧
    ∀ k ≤ level + 1, (r >>= reduce k) = (taken pending values (some (.term t)) >>= reduce k)

/-- Tokens take the reader to a term, whatever waits that yields to the level. -/
def Delivers (lookup : Origin → m (Except ε (Option Value))) (level : Nat) (ts : List Token)
    (t : Term) : Prop :=
  ∀ pending values, Yields level pending →
    ∃ s, ts.foldlM (Machine.step lookup) ⟨pending, values, .operand⟩ = pure s ∧
      Ready lookup level s pending values t

theorem mk_pure_ok {α : Type} (x : α) :
    (ExceptT.mk (pure (.ok x)) : ExceptT (ExprFault ε) m α) = pure x :=
  rfl

theorem step_of_hasOperand (hs : s.mode.hasOperand = true)
    (hsymbol : symbol ≠ "." ∧ symbol ≠ "[" ∧ symbol ≠ "L") :
    s.step lookup (.ofMark symbol)
      = s.settle lookup >>= fun s' => s'.operatorToken (.ofMark symbol) := by
  obtain ⟨hdot, hbracket, hletter⟩ := hsymbol
  rcases s with ⟨pending, values, mode⟩
  cases mode <;> simp_all [Mode.hasOperand, Machine.step, Token.ofMark]

theorem mark_of_spelling (h : spelling? symbol = some op) :
    symbol ∈ marks ∧ (symbol ≠ "." ∧ symbol ≠ "[" ∧ symbol ≠ "L") ∧ op.level ≤ 9 := by
  unfold spelling? at h
  split at h
  case h_17 => cases h
  all_goals
    obtain rfl := Option.some.inj h
    decide

variable [LawfulMonad m]

theorem mk_pure_bind {α β : Type} (r : Except (ExprFault ε) α) (f : α → Except (ExprFault ε) β) :
    (ExceptT.mk (pure r) >>= fun x => ExceptT.mk (pure (f x)) : ExceptT (ExprFault ε) m β)
      = ExceptT.mk (pure (r >>= f)) := by
  cases r <;> simp [bind, ExceptT.bind, ExceptT.bindCont, ExceptT.mk, Except.bind]

theorem accept_eq_taken (s : Machine) (v : Option Value) :
    (s.accept v : ExceptT (ExprFault ε) m Machine)
      = ExceptT.mk (pure (taken s.pending s.values v)) := by
  rw [taken, ← mk_pure_bind]
  rfl

theorem operatorToken_spelling (hop : spelling? symbol = some op)
    (h : (reduce op.level s : Except (ExprFault ε) _) = .ok (pending, values)) :
    (s.operatorToken (.ofMark symbol) : ExceptT (ExprFault ε) m Machine)
      = pure ⟨.binary op :: pending, values, .operand⟩ := by
  unfold reduce at h
  simp only [Machine.operatorToken, Token.ofMark, hop, h, mk_pure_ok, pure_bind]

theorem operatorToken_closing {token : Token} (htoken : token.text = ")")
    (h : (reduce 0 s : Except (ExprFault ε) _) = .ok (.parenthesis :: pending, values)) :
    (s.operatorToken token : ExceptT (ExprFault ε) m Machine)
      = pure ⟨pending, values, .complete⟩ := by
  have hnone : spelling? ")" = none := by decide
  unfold reduce at h
  simp only [Machine.operatorToken, htoken, hnone, h, mk_pure_ok, pure_bind, beq_self_eq_true,
    if_true]

theorem Leads.read (h : Leads ts path) (pending : List Pending) (values : List (Option Value)) :
    ts.foldlM (Machine.step lookup) ⟨pending, values, .operand⟩
      = pure ⟨pending, values, .origin path⟩ := by
  induction h with
  | root hname =>
      simp only [valueWords, List.mem_cons, List.not_mem_nil, or_false, not_or] at hname
      simp [Machine.step, Machine.operandToken, Token.ofWord, hname]
  | field h name ih =>
      rw [List.foldlM_append, ih, pure_bind]
      simp [Machine.step, Token.ofMark, Token.ofWord]
  | index h i ih =>
      rw [List.foldlM_append, ih, pure_bind]
      simp [Machine.step, Token.ofMark, Token.ofNumeral]

theorem ready_complete (level : Nat) (pending : List Pending) (values : List (Option Value))
    (t : Term) :
    Ready lookup level ⟨pending, some (.term t) :: values, .complete⟩ pending values t :=
  ⟨rfl, taken pending values (some (.term t)), accept_eq_taken _ _, fun _ _ => rfl⟩

/-- An operand whose value is computed when the reader settles. -/
theorem ready_of_settle (hs : s.mode.hasOperand = true)
    (hsettle : s.settle lookup = s.accept (some (.term t))) :
    Ready lookup level s s.pending s.values t :=
  ⟨hs, taken s.pending s.values (some (.term t)), by rw [hsettle, accept_eq_taken], fun _ _ => rfl⟩

theorem Delivers.integer {text : String}
    (hc : (integerConst text false : Except (ExprFault ε) Const) = .ok c) :
    Delivers lookup level [.ofNumeral text] (.const c) := by
  intro pending values _
  refine ⟨⟨pending, values, .integer text⟩, ?_, ready_of_settle rfl ?_⟩
  · simp [Machine.step, Machine.operandToken, Token.ofNumeral]
  · simp only [Machine.settle, hc, mk_pure_ok, pure_bind]

theorem Delivers.long {text : String}
    (hc : (integerConst text true : Except (ExprFault ε) Const) = .ok c) :
    Delivers lookup level [.ofNumeral text, .ofWord "L"] (.const c) := by
  intro pending values _
  refine ⟨_, ?_, ready_complete level pending values (.const c)⟩
  simp [Machine.step, Machine.operandToken, Token.ofNumeral, Token.ofWord, hc, mk_pure_ok]

theorem Delivers.truth (b : Bool) :
    Delivers lookup level [.ofWord (if b then "true" else "false")] (.const (.boolean b)) := by
  intro pending values _
  refine ⟨_, ?_, ready_complete level pending values (.const (.boolean b))⟩
  cases b <;> simp [Machine.step, Machine.operandToken, Machine.operandToken.value, Token.ofWord]

theorem Delivers.origin {o : Origin} (hpath : Leads ts path) (ho : Origin.parse path = .ok o)
    (ht : lookup o = pure (.ok (some (.term t)))) : Delivers lookup level ts t := by
  intro pending values _
  refine ⟨⟨pending, values, .origin path⟩, hpath.read pending values, ready_of_settle rfl ?_⟩
  have hvalue : originValue lookup path = pure (some (.term t)) := by
    simp only [originValue, ho, ht, liftM_pure, pure_bind]
  simp only [Machine.settle, hvalue, pure_bind]

theorem Delivers.grouped (h : Delivers lookup 0 ts t) :
    Delivers lookup level (.ofMark "(" :: ts ++ [.ofMark ")"]) t := by
  intro pending values _
  -- An open parenthesis yields to every level, and nothing below it is touched until the
  -- closing one has made the reader apply all that waits above.
  obtain ⟨s, hs, hoperand, r, hsettle, hr⟩ := h (.parenthesis :: pending) values trivial
  refine ⟨_, ?_, ready_complete level pending values t⟩
  have htaken : (taken (.parenthesis :: pending) values (some (.term t)) >>= reduce 0
      : Except (ExprFault ε) _) = .ok (.parenthesis :: pending, some (.term t) :: values) := rfl
  obtain ⟨s', rfl, hs'⟩ := bind_eq_ok ((hr 0 (Nat.zero_le _)).trans htaken)
  have hopen : (⟨pending, values, .operand⟩ : Machine).step lookup (.ofMark "(")
      = pure ⟨.parenthesis :: pending, values, .operand⟩ := by
    simp [Machine.step, Machine.operandToken, Token.ofMark]
  rw [List.cons_append, List.foldlM_cons, hopen, pure_bind, List.foldlM_append, hs, pure_bind,
    List.foldlM_cons, step_of_hasOperand hoperand (by decide), hsettle, mk_pure_ok, pure_bind,
    operatorToken_closing rfl hs', pure_bind, List.foldlM_nil]

theorem Delivers.unary {op : UnaryOperator} (hlevel : level ≤ 9) (h : Delivers lookup 9 ts t)
    (ht : (applyUnary op (some (.term t)) : Except (ExprFault ε) _) = .ok (some (.term t'))) :
    Delivers lookup level (.ofMark op.symbol :: ts) t' := by
  intro pending values _
  obtain ⟨s, hs, hoperand, r, hsettle, hr⟩ := h (.unary op :: pending) values (Nat.le_refl 9)
  refine ⟨s, ?_, hoperand, r, hsettle, fun k hk => ?_⟩
  · have hwaits : (⟨pending, values, .operand⟩ : Machine).step lookup (.ofMark op.symbol)
        = pure ⟨.unary op :: pending, values, .operand⟩ := by
      cases op <;> simp [Machine.step, Machine.operandToken, Token.ofMark, UnaryOperator.symbol]
    rw [List.foldlM_cons, hwaits, pure_bind, hs]
  · -- The operator is applied as soon as the reader has the operand in hand.
    rw [hr k (by omega)]
    simp only [taken, applyUnaries, ht]
    rfl

/-- An operator makes the reader apply what is tighter, which leaves the left operand. -/
theorem Delivers.operator (hop : spelling? symbol = some op) (hlevel : level < op.level)
    (ha : Delivers lookup (op.level - 1) ts a) (hyields : Yields level pending)
    (values : List (Option Value)) :
    (ts ++ [Token.ofMark symbol]).foldlM (Machine.step lookup) ⟨pending, values, .operand⟩
      = pure ⟨.binary op :: pending, some (.term a) :: values, .operand⟩ := by
  obtain ⟨-, hsymbol, hnine⟩ := mark_of_spelling hop
  obtain ⟨s, hs, hoperand, r, hsettle, hr⟩ := ha pending values (hyields.mono (by omega))
  have hleft : (r >>= reduce op.level) = .ok (pending, some (.term a) :: values) := by
    rw [hr op.level (by omega), taken_of_yields hyields (by omega)]
    exact applyBinaries_of_yields hyields hlevel _
  obtain ⟨s', rfl, hs'⟩ := bind_eq_ok hleft
  rw [List.foldlM_append, hs, pure_bind, List.foldlM_cons, step_of_hasOperand hoperand hsymbol,
    hsettle, mk_pure_ok, pure_bind, operatorToken_spelling hop hs', pure_bind, List.foldlM_nil]

theorem Delivers.binary (hop : spelling? symbol = some op) (hlevel : level < op.level)
    (ha : Delivers lookup (op.level - 1) ts a) (hb : Delivers lookup op.level us b)
    (ht : (applyBinary op (some (.term a)) (some (.term b)) : Except (ExprFault ε) _)
      = .ok (some (.term t))) :
    Delivers lookup level (ts ++ .ofMark symbol :: us) t := by
  intro pending values hyields
  have hnine := (mark_of_spelling hop).2.2
  obtain ⟨z, hz, hoperand, r, hsettle, hr⟩ :=
    hb (.binary op :: pending) (some (.term a) :: values) (Nat.le_refl op.level)
  refine ⟨z, ?_, hoperand, r, hsettle, fun k hk => ?_⟩
  · rw [List.append_cons, List.foldlM_append, ha.operator hop hlevel hyields, pure_bind, hz]
  · -- Both operands are there, so the operator is applied before what waited first.
    have happly : k ≤ op.level := by omega
    rw [hr k (by omega), taken_of_yields hyields (by omega)]
    change applyBinaries k (.binary op :: pending) (some (.term b) :: some (.term a) :: values)
      = applyBinaries k pending (some (.term t) :: values)
    rw [applyBinaries, if_pos happly, ht]
    rfl

/-- A phrase takes the reader to its term. -/
theorem Phrase.delivers (h : Phrase lookup level ts t) :
    level ≤ 9 → Delivers lookup level ts t := by
  induction h with
  | integer hc => exact fun _ => .integer hc
  | long hc => exact fun _ => .long hc
  | truth b => exact fun _ => .truth b
  | origin hpath ho ht => exact fun _ => .origin hpath ho ht
  | grouped _ ih => exact fun _ => (ih (Nat.zero_le 9)).grouped
  | unary _ ht ih => exact fun hlevel => (ih (Nat.le_refl 9)).unary hlevel ht
  | binary hop hlevel _ _ ht iha ihb =>
      intro _
      have hnine := (mark_of_spelling hop).2.2
      exact .binary hop hlevel (iha (by omega)) (ihb hnine) ht

theorem Ready.finish (h : Ready lookup 0 s [] [] t) : s.finish lookup = pure (some (.term t)) := by
  obtain ⟨hoperand, r, hsettle, hr⟩ := h
  have htaken : (taken [] [] (some (.term t)) >>= reduce 0 : Except (ExprFault ε) _)
      = .ok ([], [some (.term t)]) := rfl
  obtain ⟨s', rfl, hs'⟩ := bind_eq_ok ((hr 0 (Nat.zero_le _)).trans htaken)
  unfold reduce at hs'
  rcases s with ⟨pending, values, mode⟩
  cases mode <;> simp_all [Mode.hasOperand, Machine.finish, mk_pure_ok]

/-- A text whose tokens are a phrase is read as the term of the phrase. -/
theorem Phrase.parse_eq {source : String} (h : Phrase lookup 0 (Token.scan source) t) :
    parse lookup source = pure (.ok (some (.term t))) := by
  obtain ⟨s, hread, hready⟩ := h.delivers (Nat.zero_le 9) [] [] trivial
  have hrun : ((Token.scan source).foldlM (Machine.step lookup) {} >>= fun s => s.finish lookup)
      = (pure (some (.term t)) : ExceptT (ExprFault ε) m _) := by
    rw [hread, pure_bind, hready.finish]
  unfold parse
  rw [hrun]
  exact pure_bind _ _

end Expression

end PathWitness
