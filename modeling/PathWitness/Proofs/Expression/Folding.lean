import PathWitness.Proofs.Computation
import PathWitness.Proofs.Expression.Phrase
import PathWitness.Proofs.Term.WellTyped

/-!
# Folding the Sign of a Constant

The reader applies a minus to a constant at once, without the check that any other operand
of a unary operator passes. An operand that is read as a constant is a literal or an origin
behind signs and parentheses, since every other operator makes a term that is no constant.
The reader forgets what it has read as soon as it has a value, so this is shown along the
whole run: a machine that holds anything but signs, parentheses and constants does so ever
after (`step_plain`).

Such an operand is read the same way whatever waits for it. Steps between machines that
hold signs, parentheses and constants do not look at what lies underneath, so they can be
taken with anything put there (`Machine.over`).

## Main definitions

* `Reaction`: What a token does to a reader in a mode.
* `runOn`: Runs the reader on the state that lookups work on.
* `Machine.isPlain`: Only signs and parentheses wait, and only constants were read.
* `Machine.Balanced`: There are as many values as operators will ask for.
* `Machine.over`: The reader with more underneath.
* `negated`: What the reader makes of a minus and a constant.
* `ReadsAs`: What was read agrees with the checked construction of a term.

## Theorems

* `step_reacts`, `settle_cases`, `operatorToken_cases`, `finish_eq`: What the reader does.
* `step_plain`, `foldlM_plain`: Plain machines come from plain machines, and read the same
  over anything.
* `settles_constant`: An operand that is a constant is taken as the constant.
* `parse_signed`: A minus in front of such an operand.
-/

namespace PathWitness

namespace Expression

variable {ε σ α β : Type} {m : Type → Type} [Monad m]

section Tokens

theorem finish_of_unfinished (lookup : Origin → m (Except ε (Option Value))) {z : Machine}
    (h : z.mode.hasOperand = false) : ∃ f : ExprFault ε, z.finish lookup = throw f := by
  rcases z with ⟨pending, values, mode⟩
  cases mode with
  | operand => exact ⟨_, rfl⟩
  | field path | index path | bracket path => exact ⟨_, rfl⟩
  | complete => cases h
  | integer text | floating text | origin path => cases h

variable [LawfulMonad m]

theorem throw_bind (f : ExprFault ε) (next : α → ExceptT (ExprFault ε) m β) :
    (throw f >>= next) = throw f := by
  simp [throw, throwThe, MonadExceptOf.throw, bind, ExceptT.bind, ExceptT.bindCont, ExceptT.mk]

/-- A binary operator waits. -/
def Pending.isBinary : Pending → Bool
  | .binary _ => true
  | _ => false

/-- What a token does to a reader in a mode, whatever the reader has read: it is refused, it
    is put on top, or it ends the operand in hand. -/
inductive Reaction (lookup : Origin → m (Except ε (Option Value))) (t : Token) (mode : Mode) :
    Prop where
  | refuses (f : ExprFault ε) (h : ∀ pending values,
      (⟨pending, values, mode⟩ : Machine).step lookup t = throw f)
  | puts (ps : List Pending) (vs : List (Option Value)) (mode' : Mode) (hmode : mode ≠ .complete)
    (hps : ps.countP Pending.isBinary = 0) (hvs : vs.length = if mode' = .complete then 1 else 0)
    (h : ∀ pending values, (⟨pending, values, mode⟩ : Machine).step lookup t
      = pure ⟨ps ++ pending, vs ++ values, mode'⟩)
  | ends (hoperand : mode.hasOperand = true)
    (h : ∀ pending values, (⟨pending, values, mode⟩ : Machine).step lookup t
      = (⟨pending, values, mode⟩ : Machine).settle lookup >>= fun w => w.operatorToken t)

theorem step_reacts (lookup : Origin → m (Except ε (Option Value))) (t : Token) (mode : Mode) :
    Reaction lookup t mode := by
  cases hfault : t.fault with
  | some f => exact .refuses (.scan f) fun _ _ => by simp only [Machine.step, hfault, throw_bind]
  | none =>
      cases mode with
      | operand =>
          have hstep : ∀ pending values, (⟨pending, values, .operand⟩ : Machine).step lookup t
              = (⟨pending, values, .operand⟩ : Machine).operandToken t :=
            fun _ _ => by simp only [Machine.step, hfault]
          unfold Machine.operandToken at hstep
          split at hstep
          · exact .puts [.unary .neg] [] .operand (by simp) rfl rfl hstep
          · exact .puts [.unary .not] [] .operand (by simp) rfl rfl hstep
          · exact .puts [.parenthesis] [] .operand (by simp) rfl rfl hstep
          · exact .puts [] [] (.integer _) (by simp) rfl rfl hstep
          · exact .puts [] [] (.floating _) (by simp) rfl rfl hstep
          · exact .puts [] [_] .complete (by simp) rfl rfl hstep
          · exact .puts [] [_] .complete (by simp) rfl rfl hstep
          · exact .puts [] [_] .complete (by simp) rfl rfl hstep
          · exact .puts [] [] (.origin _) (by simp) rfl rfl hstep
          · exact .refuses _ hstep
      | complete => exact .ends rfl fun _ _ => by simp only [Machine.step, hfault]
      | floating text => exact .ends rfl fun _ _ => by simp only [Machine.step, hfault]
      | integer text =>
          by_cases hletter : (t.text == "L") = true
          · cases hc : (integerConst text true : Except (ExprFault ε) Const) with
            | error f =>
                exact .refuses f fun _ _ => by
                  simp only [Machine.step, hfault, if_pos hletter, hc]
                  exact throw_bind f _
            | ok c =>
                exact .puts [] [some (.term (.const c))] .complete (by simp) rfl rfl fun _ _ => by
                  simp only [Machine.step, hfault, if_pos hletter, hc, mk_pure_ok, pure_bind]
                  rfl
          · exact .ends rfl fun _ _ => by simp only [Machine.step, hfault, if_neg hletter]
      | origin path =>
          by_cases hdot : (t.text == ".") = true
          · exact .puts [] [] (.field path) (by simp) rfl rfl fun _ _ => by
              simp only [Machine.step, hfault, if_pos hdot, List.nil_append]
          · by_cases hbracket : (t.text == "[") = true
            · exact .puts [] [] (.index path) (by simp) rfl rfl fun _ _ => by
                simp only [Machine.step, hfault, if_neg hdot, if_pos hbracket, List.nil_append]
            · exact .ends rfl fun _ _ => by
                simp only [Machine.step, hfault, if_neg hdot, if_neg hbracket]
      | field path =>
          by_cases hname : (t.kind == .identifier) = true
          · exact .puts [] [] (.origin (path ++ "." ++ t.text)) (by simp) rfl rfl fun _ _ => by
              simp only [Machine.step, hfault, if_pos hname, List.nil_append]
          · exact .refuses .fieldExpected fun _ _ => by
              simp only [Machine.step, hfault, if_neg hname]
      | index path =>
          by_cases hnumeral : (t.kind == .integer) = true
          · exact .puts [] [] (.bracket (path ++ "[" ++ t.text ++ "]")) (by simp) rfl rfl
              fun _ _ => by simp only [Machine.step, hfault, if_pos hnumeral, List.nil_append]
          · exact .refuses .indexExpected fun _ _ => by
              simp only [Machine.step, hfault, if_neg hnumeral]
      | bracket path =>
          by_cases hclosed : (t.text == "]") = true
          · exact .puts [] [] (.origin path) (by simp) rfl rfl fun _ _ => by
              simp only [Machine.step, hfault, if_pos hclosed, List.nil_append]
          · exact .refuses .missingBracket fun _ _ => by
              simp only [Machine.step, hfault, if_neg hclosed]

/-- The operand in hand is a value that was read, or it is computed from the mode alone. -/
theorem settle_cases (lookup : Origin → m (Except ε (Option Value))) {mode : Mode}
    (h : mode.hasOperand = true) :
    (mode = .complete ∧ ∀ pending v values, (⟨pending, v :: values, mode⟩ : Machine).settle lookup
      = ExceptT.mk (pure (taken pending values v))) ∨
    mode ≠ .complete ∧ ∃ x : ExceptT (ExprFault ε) m (Option Value), ∀ pending values,
      (⟨pending, values, mode⟩ : Machine).settle lookup
        = x >>= fun v => ExceptT.mk (pure (taken pending values v)) := by
  cases mode with
  | complete => exact .inl ⟨rfl, fun _ _ _ => accept_eq_taken _ _⟩
  | integer text =>
      cases hc : (integerConst text false : Except (ExprFault ε) Const) with
      | error f =>
          refine .inr ⟨by simp, throw f, fun _ _ => ?_⟩
          simp only [Machine.settle, hc, throw_bind]
          exact throw_bind f _
      | ok c =>
          refine .inr ⟨by simp, pure (some (.term (.const c))), fun _ _ => ?_⟩
          simp only [Machine.settle, hc, mk_pure_ok, pure_bind, accept_eq_taken]
  | floating text =>
      cases hx : Number.parseFloating text.toList with
      | error f =>
          refine .inr ⟨by simp, throw (.floating text f), fun _ _ => ?_⟩
          simp only [Machine.settle, hx, throw_bind]
      | ok x =>
          refine .inr ⟨by simp, pure (some (.term (.const (.double x)))), fun _ _ => ?_⟩
          simp only [Machine.settle, hx, pure_bind, accept_eq_taken]
  | origin path =>
      refine .inr ⟨by simp, originValue lookup path, fun _ _ => ?_⟩
      simp only [Machine.settle, accept_eq_taken]
  | operand => cases h
  | field path | index path | bracket path => cases h

/-- The value of the expression when the last operand is taken. -/
def outcome (w : Machine) : Except (ExprFault ε) (Option Value) :=
  reduce 0 w >>= fun r =>
    match r with
    | ([], v :: _) => .ok v
    | _ => .error .missingParenthesis

theorem reduce_of_outcome {w : Machine} {v : Option Value}
    (h : (outcome w : Except (ExprFault ε) _) = .ok v) :
    ∃ values, (reduce 0 w : Except (ExprFault ε) _) = .ok ([], v :: values) := by
  obtain ⟨r, hreduce, hv⟩ := bind_eq_ok h
  split at hv
  · rw [← Except.ok.inj hv]
    exact ⟨_, hreduce⟩
  · cases hv

/-- Reading ends with the operand in hand. -/
theorem finish_eq (lookup : Origin → m (Except ε (Option Value))) {z : Machine}
    (h : z.mode.hasOperand = true) :
    z.finish lookup = z.settle lookup >>= fun w => ExceptT.mk (pure (outcome w)) := by
  rcases z with ⟨pending, values, mode⟩
  cases mode with
  | operand => cases h
  | field path | index path | bracket path => cases h
  | complete | integer text | floating text | origin path =>
      refine bind_congr fun w => ?_
      rw [outcome, ← mk_pure_bind]
      refine bind_congr fun r => ?_
      rcases r with ⟨_ | ⟨p, pending⟩, _ | ⟨v, values⟩⟩ <;> rfl

end Tokens

/-- Signs and parentheses, which leave a constant a constant. -/
def Pending.isSign : Pending → Bool
  | .unary .neg | .parenthesis => true
  | _ => false

/-- The value is a constant. -/
def isConst : Option Value → Bool
  | some (.term (.const _)) => true
  | _ => false

/-- Only signs and parentheses wait, and only constants were read. -/
def Machine.isPlain (z : Machine) : Bool :=
  z.pending.all Pending.isSign && z.values.all isConst

/-- There are as many values as the waiting operators will ask for, apart from the operand
    that is not complete yet. -/
def Machine.Balanced (z : Machine) : Prop :=
  z.values.length = z.pending.countP Pending.isBinary + if z.mode = .complete then 1 else 0

/-- The reader with more underneath. -/
def Machine.over (z : Machine) (pending : List Pending) (values : List (Option Value)) : Machine :=
  ⟨z.pending ++ pending, z.values ++ values, z.mode⟩

section Operators

variable {op : UnaryOperator} {v v' : Option Value} {pending pending' more : List Pending}
  {values values' : List (Option Value)} {below : List (Option Value)} {k : Nat} {z w : Machine}

/-- Only a sign makes a constant, and only of a constant. -/
theorem applyUnary_isConst (h : (applyUnary op v : Except (ExprFault ε) _) = .ok v')
    (hv' : isConst v' = true) : isConst v = true ∧ op = .neg := by
  have hbuild : ∀ t, (applyUnary.build op t : Except (ExprFault ε) _) ≠ .ok v' := by
    intro t hmade
    unfold applyUnary.build at hmade
    split at hmade
    · rename_i u hu
      obtain ⟨op', -, rfl, -⟩ := Term.mkUnary_cases hu
      rw [← Except.ok.inj hmade] at hv'
      cases hv'
    · cases hmade
  unfold applyUnary at h
  split at h
  · split at h
    · exact ⟨rfl, rfl⟩
    · exact absurd h (hbuild _)
  · cases h

/-- A binary operator does not make a constant. -/
theorem applyBinary_isConst {op : Spelling} {left right : Option Value}
    (h : (applyBinary op left right : Except (ExprFault ε) _) = .ok v') : isConst v' = false := by
  unfold applyBinary at h
  split at h
  · split at h
    · rename_i t ht
      obtain ⟨op', -, rfl, -⟩ := Term.mkBinary_cases ht
      rw [← Except.ok.inj h]
      rfl
    · cases h
  · cases h

/-- Unary operators are applied up to what is none, and leave a constant only if they are
    signs of a constant. -/
theorem applyUnaries_cases (h : (applyUnaries v pending : Except (ExprFault ε) _)
      = .ok (v', pending')) :
    pending.countP Pending.isBinary = pending'.countP Pending.isBinary ∧
      (isConst v' = true → isConst v = true ∧
        pending.all Pending.isSign = pending'.all Pending.isSign) := by
  induction pending generalizing v with
  | nil =>
      obtain ⟨rfl, rfl⟩ := Prod.mk.inj (Except.ok.inj h)
      exact ⟨rfl, fun hv => ⟨hv, rfl⟩⟩
  | cons p rest ih =>
      cases p with
      | unary op =>
          obtain ⟨u, hu, hrest⟩ := bind_eq_ok h
          obtain ⟨hcount, hconst⟩ := ih hrest
          refine ⟨?_, fun hv' => ?_⟩
          · rw [← hcount]
            exact List.countP_cons_of_neg (by simp [Pending.isBinary])
          · obtain ⟨hu', hall⟩ := hconst hv'
            obtain ⟨hv, rfl⟩ := applyUnary_isConst hu hu'
            exact ⟨hv, by rw [List.all_cons, hall]; rfl⟩
      | binary op =>
          obtain ⟨rfl, rfl⟩ := Prod.mk.inj (Except.ok.inj h)
          exact ⟨rfl, fun hv => ⟨hv, rfl⟩⟩
      | parenthesis =>
          obtain ⟨rfl, rfl⟩ := Prod.mk.inj (Except.ok.inj h)
          exact ⟨rfl, fun hv => ⟨hv, rfl⟩⟩

/-- With more underneath, unary operators go on only where nothing was left. -/
theorem applyUnaries_append (h : (applyUnaries v pending : Except (ExprFault ε) _)
      = .ok (v', pending')) (more : List Pending) :
    (applyUnaries v (pending ++ more) : Except (ExprFault ε) _)
      = if pending' = [] then applyUnaries v' more else .ok (v', pending' ++ more) := by
  induction pending generalizing v with
  | nil =>
      obtain ⟨rfl, rfl⟩ := Prod.mk.inj (Except.ok.inj h)
      rfl
  | cons p rest ih =>
      cases p with
      | unary op =>
          obtain ⟨u, hu, hrest⟩ := bind_eq_ok h
          rw [← ih hrest, List.cons_append, applyUnaries, hu]
          rfl
      | binary op =>
          obtain ⟨rfl, rfl⟩ := Prod.mk.inj (Except.ok.inj h)
          rfl
      | parenthesis =>
          obtain ⟨rfl, rfl⟩ := Prod.mk.inj (Except.ok.inj h)
          rfl

/-- Applying binary operators keeps the balance, and it leaves signs, parentheses and
    constants only if there was nothing to apply. -/
theorem applyBinaries_cases (h : (applyBinaries k pending values : Except (ExprFault ε) _)
      = .ok (pending', values')) :
    values'.length + pending.countP Pending.isBinary
        = values.length + pending'.countP Pending.isBinary ∧
      (values'.all isConst = true → pending' = pending ∧ values' = values) := by
  fun_induction applyBinaries (ε := ε) k pending values with
  | case1 op rest right left values hlevel ih =>
      obtain ⟨u, hu, hrest⟩ := bind_eq_ok h
      obtain ⟨hlength, hconst⟩ := ih u hrest
      refine ⟨?_, fun hall => ?_⟩
      · rw [List.countP_cons_of_pos (by rfl)]
        simp only [List.length_cons] at hlength ⊢
        omega
      · -- What was made stays among the values, and it is no constant.
        obtain ⟨-, rfl⟩ := hconst hall
        rw [List.all_cons, applyBinary_isConst hu] at hall
        cases hall
  | case2 op rest right left values hlevel =>
      obtain ⟨rfl, rfl⟩ := Prod.mk.inj (Except.ok.inj h)
      exact ⟨rfl, fun _ => ⟨rfl, rfl⟩⟩
  | case3 pending values hnone =>
      obtain ⟨rfl, rfl⟩ := Prod.mk.inj (Except.ok.inj h)
      exact ⟨rfl, fun _ => ⟨rfl, rfl⟩⟩

end Operators

/-- Runs the reader on the state that lookups work on. -/
def runOn (x : ExceptT (ExprFault ε) (StateM σ) α) (s : σ) : Except (ExprFault ε) α × σ :=
  StateT.run (ExceptT.run x) s

theorem runOn_bind (x : ExceptT (ExprFault ε) (StateM σ) α)
    (f : α → ExceptT (ExprFault ε) (StateM σ) β) (s : σ) :
    runOn (x >>= f) s = andThen (runOn x s) fun a s' => runOn (f a) s' :=
  run_bind x f s

theorem runOn_pure (a : α) (s : σ) :
    runOn (pure a : ExceptT (ExprFault ε) (StateM σ) α) s = (.ok a, s) :=
  rfl

theorem runOn_throw (f : ExprFault ε) (s : σ) :
    runOn (throw f : ExceptT (ExprFault ε) (StateM σ) α) s = (.error f, s) :=
  rfl

theorem runOn_mk (r : Except (ExprFault ε) α) (s : σ) :
    runOn (ExceptT.mk (pure r) : ExceptT (ExprFault ε) (StateM σ) α) s = (r, s) :=
  rfl

section Runs

variable {lookup : Origin → StateM σ (Except ε (Option Value))} {s s' : σ} {t : Token}
  {ts : List Token} {v : Option Value} {pending more : List Pending}
  {values below : List (Option Value)} {z z' w : Machine} {c : Const}

/-- The operand in hand is taken by what waits for it, and by nothing else. -/
theorem settle_hand (hz : z.Balanced) (hoperand : z.mode.hasOperand = true)
    (h : runOn (z.settle lookup) s = (.ok w, s')) :
    ∃ v rest, z.values.length = rest.length + (if z.mode = .complete then 1 else 0) ∧
      (isConst v = true → rest.all isConst = true → z.values.all isConst = true) ∧
      ∀ more below, runOn ((z.over more below).settle lookup) s
        = (taken (z.pending ++ more) (rest ++ below) v, s') := by
  rcases z with ⟨pending, values, mode⟩
  rcases settle_cases lookup hoperand with ⟨rfl, hsettle⟩ | ⟨hmode, x, hx⟩
  · cases values with
    | nil => cases hz
    | cons v rest =>
        rw [hsettle, runOn_mk] at h
        refine ⟨v, rest, rfl, fun hv hrest => by simp [hv, hrest], fun more below => ?_⟩
        rw [Machine.over, List.cons_append, hsettle, runOn_mk, (Prod.mk.inj h).2]
  · rw [hx, runOn_bind] at h
    obtain ⟨v, s₁, hv, htaken⟩ := andThen_eq_ok h
    rw [runOn_mk] at htaken
    refine ⟨v, values, by simp [hmode], fun _ hall => hall, fun more below => ?_⟩
    rw [Machine.over, hx, runOn_bind, hv, andThen_ok, runOn_mk, (Prod.mk.inj htaken).2]

/-- Settling keeps the balance and does not hide what was read. With more underneath, the
    value is handed on where nothing was left to wait for it. -/
theorem settle_over (hz : z.Balanced) (hoperand : z.mode.hasOperand = true)
    (h : runOn (z.settle lookup) s = (.ok w, s')) :
    w.values.length = w.pending.countP Pending.isBinary + 1 ∧
      (w.isPlain = true → z.isPlain = true) ∧ ∃ v rest, w.values = v :: rest ∧ ∀ more below,
        runOn ((z.over more below).settle lookup) s
          = (if w.pending = [] then taken more (rest ++ below) v else .ok (w.over more below),
            s') := by
  obtain ⟨v, rest, hlength, hconst, hover⟩ := settle_hand hz hoperand h
  have hbase := hover [] []
  rw [List.append_nil, List.append_nil] at hbase
  have hself : z.over [] [] = z := by simp [Machine.over]
  rw [hself, h] at hbase
  obtain ⟨⟨v', pending'⟩, hunaries, hw⟩ := bind_eq_ok (Prod.mk.inj hbase).1.symm
  obtain rfl := Except.ok.inj hw
  obtain ⟨hcount, hsigns⟩ := applyUnaries_cases hunaries
  refine ⟨?_, fun hplain => ?_, v', rest, rfl, fun more below => ?_⟩
  · unfold Machine.Balanced at hz
    simp only [List.length_cons]
    omega
  · simp only [Machine.isPlain, List.all_cons, Bool.and_eq_true] at hplain ⊢
    obtain ⟨hv, hall⟩ := hsigns hplain.2.1
    exact ⟨hall.trans hplain.1, hconst hv hplain.2.2⟩
  · rw [hover more below, taken, applyUnaries_append hunaries more]
    by_cases hnone : pending' = []
    · simp only [hnone, if_true]
      rfl
    · simp only [hnone, if_false]
      rfl

/-- A token after an operand is an operator or closes a parenthesis. -/
theorem operatorToken_cases
    (h : runOn (w.operatorToken t : ExceptT (ExprFault ε) (StateM σ) _) s = (.ok z', s')) :
    s' = s ∧ ((∃ op pending values, (reduce op.level w : Except (ExprFault ε) _)
        = .ok (pending, values) ∧ z' = ⟨.binary op :: pending, values, .operand⟩) ∨
      ∃ pending values, t.text = ")" ∧ (reduce 0 w : Except (ExprFault ε) _)
        = .ok (.parenthesis :: pending, values) ∧ z' = ⟨pending, values, .complete⟩) := by
  unfold Machine.operatorToken at h
  split at h
  · rename_i op _
    rw [runOn_bind, runOn_mk] at h
    obtain ⟨⟨pending, values⟩, s₁, happlied, hnext⟩ := andThen_eq_ok h
    obtain ⟨hreduce, rfl⟩ := Prod.mk.inj happlied
    obtain ⟨hz', rfl⟩ := Prod.mk.inj hnext
    exact ⟨rfl, .inl ⟨op, pending, values, hreduce, (Except.ok.inj hz').symm⟩⟩
  · rw [runOn_bind, runOn_mk] at h
    obtain ⟨⟨pending, values⟩, s₁, happlied, hnext⟩ := andThen_eq_ok h
    obtain ⟨hreduce, rfl⟩ := Prod.mk.inj happlied
    dsimp only at hnext
    split at hnext
    · split at hnext
      · rename_i hclosed
        obtain ⟨hz', rfl⟩ := Prod.mk.inj hnext
        exact ⟨rfl, .inr ⟨_, values, by simpa using hclosed, hreduce, (Except.ok.inj hz').symm⟩⟩
      · cases (Prod.mk.inj hnext).1
    · cases (Prod.mk.inj hnext).1

/-- A step keeps the balance. It leads to a plain machine only from one, and it can then be
    taken with anything underneath. -/
theorem step_plain (hz : z.Balanced) (h : runOn (z.step lookup t) s = (.ok z', s')) :
    z'.Balanced ∧ (z'.isPlain = true → z.isPlain = true ∧ ∀ more below,
      runOn ((z.over more below).step lookup t) s = (.ok (z'.over more below), s')) := by
  cases step_reacts lookup t z.mode with
  | refuses f hstep =>
      rw [hstep z.pending z.values] at h
      cases (Prod.mk.inj h).1
  | puts ps vs mode hmode hps hvs hstep =>
      rw [hstep z.pending z.values, runOn_pure] at h
      obtain ⟨hz', rfl⟩ := Prod.mk.inj h
      obtain rfl := Except.ok.inj hz'
      refine ⟨?_, fun hplain => ⟨?_, fun more below => ?_⟩⟩
      · unfold Machine.Balanced at hz ⊢
        simp only [if_neg hmode] at hz
        simp only [List.length_append, List.countP_append]
        omega
      · simp only [Machine.isPlain, List.all_append, Bool.and_eq_true] at hplain ⊢
        exact ⟨hplain.1.2, hplain.2.2⟩
      · rw [Machine.over, hstep, runOn_pure]
        simp only [Machine.over, List.append_assoc]
  | ends hoperand hstep =>
      rw [hstep z.pending z.values, runOn_bind] at h
      obtain ⟨w, s₁, hsettle, htoken⟩ := andThen_eq_ok h
      obtain ⟨hw, hback, v, rest, hvalues, hover⟩ := settle_over hz hoperand hsettle
      obtain ⟨rfl, hends⟩ := operatorToken_cases htoken
      rcases hends with ⟨op, pending, values, hreduce, rfl⟩ |
        ⟨pending, values, hclosing, hreduce, rfl⟩
      · -- From now on a binary operator waits.
        obtain ⟨hlength, -⟩ := applyBinaries_cases hreduce
        refine ⟨?_, fun hplain => ?_⟩
        · simp only [Machine.Balanced, List.countP_cons_of_pos (show Pending.isBinary (.binary op)
            from rfl), reduceCtorEq, if_false]
          omega
        · simp [Machine.isPlain, Pending.isSign] at hplain
      · obtain ⟨hlength, hsame⟩ := applyBinaries_cases hreduce
        refine ⟨?_, fun hplain => ?_⟩
        · rw [List.countP_cons_of_neg (by simp [Pending.isBinary])] at hlength
          simp only [Machine.Balanced, if_true]
          omega
        · simp only [Machine.isPlain, Bool.and_eq_true] at hplain
          obtain ⟨hpending, hall⟩ := hsame hplain.2
          have hopen : w.pending ≠ [] := by
            rw [← hpending]
            exact List.cons_ne_nil _ _
          refine ⟨hback ?_, fun more below => ?_⟩
          · rw [Machine.isPlain, ← hpending, ← hall, List.all_cons, hplain.1, hplain.2]
            rfl
          · have hreduce' : (reduce 0 (w.over more below) : Except (ExprFault ε) _)
                = .ok (.parenthesis :: (pending ++ more), values ++ below) := by
              rw [reduce, Machine.over, ← hpending, ← hall]
              simp [applyBinaries]
            rw [Machine.over, hstep, ← Machine.over, runOn_bind, hover, if_neg hopen, andThen_ok,
              operatorToken_closing hclosing hreduce', runOn_pure]
            rfl

/-- The same for any number of steps. -/
theorem foldlM_plain (hz : z.Balanced)
    (h : runOn (ts.foldlM (Machine.step lookup) z) s = (.ok z', s')) :
    z'.Balanced ∧ (z'.isPlain = true → z.isPlain = true ∧ ∀ more below,
      runOn (ts.foldlM (Machine.step lookup) (z.over more below)) s
        = (.ok (z'.over more below), s')) := by
  induction ts generalizing z s with
  | nil =>
      obtain ⟨hz', rfl⟩ := Prod.mk.inj h
      obtain rfl := Except.ok.inj hz'
      exact ⟨hz, fun hplain => ⟨hplain, fun _ _ => rfl⟩⟩
  | cons t rest ih =>
      rw [List.foldlM_cons, runOn_bind] at h
      obtain ⟨z₁, s₁, hstep, hrest⟩ := andThen_eq_ok h
      obtain ⟨hz₁, hfirst⟩ := step_plain hz hstep
      obtain ⟨hz', hall⟩ := ih hz₁ hrest
      refine ⟨hz', fun hplain => ?_⟩
      obtain ⟨hplain₁, hover⟩ := hall hplain
      obtain ⟨hplain₀, hover₁⟩ := hfirst hplain₁
      refine ⟨hplain₀, fun more below => ?_⟩
      rw [List.foldlM_cons, runOn_bind, hover₁, andThen_ok, hover]

/-- A constant at the end is the operand in hand, with nothing left that waits for it. -/
theorem finish_isConst (hz : z.Balanced) (h : runOn (z.finish lookup) s = (.ok v, s'))
    (hv : isConst v = true) : z.mode.hasOperand = true ∧ ∃ w, w.pending = [] ∧ w.values = [v] ∧
      runOn (z.settle lookup) s = (.ok w, s') := by
  cases hoperand : z.mode.hasOperand with
  | false =>
      obtain ⟨f, hf⟩ := finish_of_unfinished lookup hoperand
      rw [hf] at h
      cases (Prod.mk.inj h).1
  | true =>
      rw [finish_eq lookup hoperand, runOn_bind] at h
      obtain ⟨w, s₁, hsettle, hlast⟩ := andThen_eq_ok h
      obtain ⟨houtcome, rfl⟩ := Prod.mk.inj hlast
      obtain ⟨values, hreduce⟩ := reduce_of_outcome houtcome
      obtain ⟨hlength, hsame⟩ := applyBinaries_cases hreduce
      obtain ⟨hw, -, -⟩ := settle_over hz hoperand hsettle
      -- Every operator has taken its operands, so there is one value.
      obtain rfl : values = [] := by
        rw [hw, List.length_cons, List.countP_nil] at hlength
        exact List.eq_nil_of_length_eq_zero (by omega)
      obtain ⟨hpending, hvalues⟩ := hsame (by simp [hv])
      exact ⟨rfl, w, hpending.symm, hvalues.symm, hsettle⟩

/-- An operand that is a constant by itself is read as the constant by whatever waits for it. -/
theorem settles_constant
    (h : runOn (ts.foldlM (Machine.step lookup) {} >>= fun z => z.finish lookup) s = (.ok v, s'))
    (hv : isConst v = true) (pending : List Pending) (values : List (Option Value)) :
    ∃ z s₁, runOn (ts.foldlM (Machine.step lookup) ⟨pending, values, .operand⟩) s = (.ok z, s₁) ∧
      z.mode.hasOperand = true ∧ runOn (z.settle lookup) s₁ = (taken pending values v, s') := by
  rw [runOn_bind] at h
  obtain ⟨z, s₁, hread, hfinish⟩ := andThen_eq_ok h
  obtain ⟨hz, hplain⟩ := foldlM_plain (z := {}) rfl hread
  obtain ⟨hoperand, w, hpending, hvalues, hsettle⟩ := finish_isConst hz hfinish hv
  obtain ⟨-, hback, v', rest, hrest, hover⟩ := settle_over hz hoperand hsettle
  have hw : w.isPlain = true := by simp [Machine.isPlain, hpending, hvalues, hv]
  obtain ⟨rfl, rfl⟩ : v' = v ∧ rest = [] := by
    rw [hvalues] at hrest
    obtain ⟨hhead, htail⟩ := List.cons.inj hrest
    exact ⟨hhead.symm, htail.symm⟩
  refine ⟨z.over pending values, s₁, (hplain (hback hw)).2 pending values, hoperand, ?_⟩
  rw [hover, if_pos hpending, List.nil_append]

/-- Reading a text is reading its tokens; a fault is given the text it was found in. -/
theorem run_parse {source : String} {r : Except (ExprFault ε) (Option Value)}
    (h : runOn ((Token.scan source).foldlM (Machine.step lookup) {} >>= fun z => z.finish lookup) s
      = (r, s')) :
    StateT.run (parse lookup source) s = (r.mapError (ExprError.mk source), s') := by
  have hthen : ∀ {α β : Type} {x : StateM σ α} {a : α} (next : α → StateM σ β),
      StateT.run x s = (a, s') → StateT.run (x >>= next) s = StateT.run (next a) s' :=
    fun _ hx => by rw [StateT.run_bind, hx]; rfl
  refine (hthen _ h).trans ?_
  cases r <;> rfl

theorem run_of_parse {source : String} {v : Option Value}
    (h : StateT.run (parse lookup source) s = (.ok v, s')) :
    runOn ((Token.scan source).foldlM (Machine.step lookup) {} >>= fun z => z.finish lookup) s
      = (.ok v, s') := by
  rcases hread : runOn ((Token.scan source).foldlM (Machine.step lookup) {}
    >>= fun z => z.finish lookup) s with ⟨r, s₁⟩
  rw [run_parse hread] at h
  obtain ⟨hr, rfl⟩ := Prod.mk.inj h
  rw [ok_of_mapError hr]

/-- What the reader makes of a minus and a constant. -/
def negated (c : Const) : Term :=
  if c.isFloating then .unary .neg (.const c) else .const (.ofInt64 c.type (-c.toInt64))

theorem applyUnary_neg (c : Const) : (applyUnary .neg (some (.term (.const c)))
    : Except (ExprFault ε) _) = .ok (some (.term (negated c))) := by
  cases c <;> rfl

/-- What was read agrees with the checked construction of a term: both fail, or the term that
    was read has the type and the values of the one that was made. -/
def ReadsAs (read : Except (ExprError ε) (Option Value)) (made : Except TermError Term) : Prop :=
  match made with
  | .error _ => ∃ e, read = .error e
  | .ok t => ∃ u, read = .ok (some (.term u)) ∧ u.type = t.type ∧ ∀ m : Model, m.eval u = m.eval t

theorem readsAs_negated_iff (c : Const) : ReadsAs (.ok (some (.term (negated c)))
      : Except (ExprError ε) _) (Term.mkUnary (.unary .neg) (some (.const c)))
    ↔ c.type ∈ [.int, .long, .float, .double] := by
  -- A narrow constant keeps its type, and a checked negation is promoted.
  have hnarrow : ∀ c : Const, c.isFloating = false → c.type ≠ Prim.promote c.type c.type →
      ¬ReadsAs (.ok (some (.term (negated c))) : Except (ExprError ε) _)
        (.ok (.unary .neg (.const c))) := by
    rintro c hfloating htype ⟨u, hu, hsame, -⟩
    have hterm : u = negated c := Value.term.inj (Option.some.inj (Except.ok.inj hu)).symm
    rw [hterm, negated, hfloating] at hsame
    exact htype ((Const.type_ofInt64 _ _).symm.trans hsame)
  cases c with
  | boolean b =>
      refine ⟨?_, fun h => absurd h (by simp [Const.type])⟩
      rintro ⟨e, he⟩
      cases he
  | byte v | char v | short v =>
      refine ⟨fun h => absurd h (hnarrow _ rfl ?_), fun h => absurd h (by simp [Const.type])⟩
      simp [Const.type, Prim.promote]
  | int v | long v | float v | double v =>
      exact ⟨fun _ => by simp [Const.type], fun _ => ⟨_, rfl, rfl, fun _ => rfl⟩⟩

/-- A minus in front of an operand that is read as a constant. It is never refused, while the
    checked negation refuses truth values; and the constant keeps its type, while the checked
    negation of a narrow type is an `int`. The two agree on all other types. Nothing of this
    depends on what the operand with its sign is part of. -/
theorem parse_signed {source operand : String} {c : Const}
    (hsource : Token.scan source = .ofMark "-" :: Token.scan operand)
    (hoperand : StateT.run (parse lookup operand) s = (.ok (some (.term (.const c))), s')) :
    StateT.run (parse lookup source) s = (.ok (some (.term (negated c))), s') ∧
      (ReadsAs (.ok (some (.term (negated c))) : Except (ExprError ε) _)
          (Term.mkUnary (.unary .neg) (some (.const c)))
        ↔ c.type ∈ [.int, .long, .float, .double]) ∧
      (c.type = .boolean → negated c = .const c ∧
        Term.mkUnary (.unary .neg) (some (.const c)) = .error (.unaryMismatch .neg .boolean)) ∧
      (c.type ∈ [.byte, .char, .short] → (negated c).type = c.type ∧
        ∃ t, Term.mkUnary (.unary .neg) (some (.const c)) = .ok t ∧ t.type = .int) ∧
      ∀ pending values, ∃ z s₁,
        runOn ((Token.scan source).foldlM (Machine.step lookup) ⟨pending, values, .operand⟩) s
          = (.ok z, s₁) ∧ z.mode.hasOperand = true ∧
        runOn (z.settle lookup) s₁ = (taken pending values (some (.term (negated c))), s') := by
  have hcontext : ∀ pending values, ∃ z s₁,
      runOn ((Token.scan source).foldlM (Machine.step lookup) ⟨pending, values, .operand⟩) s
        = (.ok z, s₁) ∧ z.mode.hasOperand = true ∧
      runOn (z.settle lookup) s₁ = (taken pending values (some (.term (negated c))), s') := by
    intro pending values
    obtain ⟨z, s₁, hread, hmode, hsettle⟩ :=
      settles_constant (run_of_parse hoperand) rfl (.unary .neg :: pending) values
    have hsign : (⟨pending, values, .operand⟩ : Machine).step lookup (.ofMark "-")
        = pure ⟨.unary .neg :: pending, values, .operand⟩ := rfl
    refine ⟨z, s₁, ?_, hmode, ?_⟩
    · rw [hsource, List.foldlM_cons, hsign, pure_bind, hread]
    · -- The sign is the first to take the constant.
      rw [hsettle, taken, applyUnaries, applyUnary_neg]
      rfl
  refine ⟨?_, readsAs_negated_iff c, fun htype => ?_, fun htype => ?_, hcontext⟩
  · obtain ⟨z, s₁, hread, hmode, hsettle⟩ := hcontext [] []
    refine run_parse (r := .ok _) ?_
    rw [runOn_bind, hread, andThen_ok, finish_eq lookup hmode, runOn_bind, hsettle]
    rfl
  · cases c with
    | boolean b => cases b <;> exact ⟨rfl, rfl⟩
    | _ => cases htype
  · cases c with
    | byte v | char v | short v => exact ⟨rfl, _, rfl, rfl⟩
    | _ => simp [Const.type] at htype

/-- Expressions without origins. -/
def noOrigins : Origin → StateM Unit (Except Unit (Option Value)) :=
  fun _ => pure (.error ())

theorem parse_signed_least :
    Token.scan "-(-2147483648)" = .ofMark "-" :: Token.scan "(-2147483648)" ∧
      StateT.run (parse noOrigins "(-2147483648)") ()
        = (.ok (some (.term (.const (.long (-2147483648))))), ()) ∧
      StateT.run (parse noOrigins "-(-2147483648)") ()
        = (.ok (some (.term (.const (.long 2147483648)))), ()) := by
  have hscan : Token.scan "-(-2147483648)" = .ofMark "-" :: Token.scan "(-2147483648)" := by
    decide +kernel
  have hread : StateT.run (parse noOrigins "(-2147483648)") ()
      = (.ok (some (.term (.const (.long (-2147483648))))), ()) := by rfl
  exact ⟨hscan, hread, (parse_signed hscan hread).1⟩

/-- A minus is accepted in front of a truth value, where the checked negation refuses it. -/
theorem signed_truth_accepted :
    StateT.run (parse noOrigins "true") () = (.ok (some (.term (.const (.boolean true)))), ()) ∧
      StateT.run (parse noOrigins "-true") () = (.ok (some (.term (.const (.boolean true)))), ()) ∧
      ¬ReadsAs (StateT.run (parse noOrigins "-true") ()).1
        (Term.mkUnary (.unary .neg) (some (.const (.boolean true)))) := by
  refine ⟨rfl, rfl, ?_⟩
  rintro ⟨e, he⟩
  cases he

end Runs

end Expression

end PathWitness
