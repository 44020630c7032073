import PathWitness.Proofs.Expression.Reads

/-!
# Precedence

The reader decides with a level for each operator when a waiting operator takes the
value in hand. What this comes to is said here from the other side. A tree is written
with parentheses only where they are needed, by a table of precedences that knows
nothing of the reader, and what is written is read as the tree.

An operand needs parentheses if the reader would take it apart. On the left of an
operator that is the case if its own operator binds looser; on the right also if it binds
equally tight, since operators of a row group to the left. Everything that is no binary
tree holds together by itself.

How a connective is written depends on its operands: `&&` and `||` between truth values,
`&` and `|` between integers, with different places in the table. So a tree is written
with the terms of its parts at hand.

## Main definitions

* `precedenceRows`: The operators by precedence.
* `Formula`: The tree of an expression.
* `Formula.term`, `Formula.accepted`: The term of a tree, and when it can be built.
* `Formula.write`: A tree as it is written.

## Theorems

* `spelling?_symbolFor`: Operators are read with the precedence of the table.
* `Formula.reads`: A tree as it is written stands for its term.
* `parse_write`: Reading a written tree gives its term.
-/

namespace PathWitness

namespace Expression

variable {ε : Type} {m : Type → Type} [Monad m] {lookup : Origin → m (Except ε (Option Value))}
  {level : Nat} {text : String} {t : Term}

/-- The binary operators of Java by precedence, the shifts left out: those of a row bind
    tighter than those of the rows before it. -/
def precedenceRows : List (List String) :=
  [["||"], ["&&"], ["|"], ["^"], ["&"], ["==", "!="], ["<", "<=", ">", ">="], ["+", "-"],
    ["*", "/", "%"]]

/-- The row of an operator, counted from one. -/
def precedence (symbol : String) : Nat :=
  precedenceRows.findIdx (·.contains symbol) + 1

/-- A binary operator that is not a shift. -/
abbrev Junctor := { op : BinaryOperator // (Operator.binary op).isShift = false }

/-- An origin that can be written in an expression. -/
abbrev Route := { o : Origin // o.isReadable = true }

/-- The tree of an expression. -/
inductive Formula where
  | integer (l : IntegerLiteral)
  | truth (b : Bool)
  | origin (o : Route)
  | unary (op : UnaryOperator) (arg : Formula)
  | binary (op : Junctor) (left right : Formula)

namespace Formula

variable (env : Origin → Term)

/-- The term of a tree, where `env` gives the values of origins. -/
def term : Formula → Term
  | integer l => .const l.const
  | truth b => .const (.boolean b)
  | origin o => env o
  | unary op arg => .unary op arg.term
  | binary op left right => .binary op left.term right.term

/-- Every operator fits its operands, and no constant is negated. -/
def accepted : Formula → Bool
  | unary op arg =>
    arg.accepted && (op != .neg || (arg.term env).const?.isNone) &&
      (Term.mkUnary (.unary op) (some (arg.term env))).isOk
  | binary op left right =>
    left.accepted && right.accepted &&
      (Term.mkBinary (.binary op) (some (left.term env)) (some (right.term env))).isOk
  | _ => true

/-- The origins in a tree. -/
def origins : Formula → List Origin
  | origin o => [o]
  | unary _ arg => arg.origins
  | binary _ left right => left.origins ++ right.origins
  | _ => []

/-- How the operator of a binary tree is written. -/
def symbol (op : Junctor) (left right : Formula) : String :=
  Term.binarySymbol op (left.term env) (right.term env)

/-- How tightly a tree holds together: as tightly as its binary operator binds, and
    without one tighter than any. -/
def tightness : Formula → Nat
  | binary op left right => precedence (symbol env op left right)
  | _ => precedenceRows.length + 1

/-- Parentheses where they are needed. -/
def enclose (needed : Bool) (text : String) : String :=
  if needed then "(" ++ text ++ ")" else text

/-- A tree as it is written, with parentheses only around operands that would otherwise
    be taken apart: a left operand that is looser than its operator, and a right operand
    that is not tighter. -/
def write : Formula → String
  | integer l => l.text
  | truth b => if b then "true" else "false"
  | origin o => o.val.path
  | unary op arg =>
    op.symbol ++ " " ++ enclose (arg.tightness env ≤ precedenceRows.length) arg.write
  | binary op left right =>
    enclose (left.tightness env < precedence (symbol env op left right)) left.write ++ " " ++
      symbol env op left right ++ " " ++
      enclose (right.tightness env ≤ precedence (symbol env op left right)) right.write

end Formula

open Formula

/-- Operators are read with the precedence that the table gives them. -/
theorem spelling?_symbolFor (op : Junctor) (type : Prim) :
    ∃ sp, spelling? (op.val.symbolFor type) = some sp ∧ sp.op = op ∧
      sp.level = precedence (op.val.symbolFor type) := by
  rcases op with ⟨op | op | op | op, hop⟩
  · cases op <;> exact ⟨_, rfl, rfl, rfl⟩
  · rw [BinaryOperator.symbolFor]
    by_cases htype : type = .boolean
    · rw [if_pos htype]
      cases op <;> exact ⟨_, rfl, rfl, rfl⟩
    · rw [if_neg htype]
      cases op <;> exact ⟨_, rfl, rfl, rfl⟩
  · cases hop
  · cases op <;> exact ⟨_, rfl, rfl, rfl⟩

theorem Formula.tightness_pos (env : Origin → Term) (f : Formula) : 0 < f.tightness env := by
  cases f <;> exact Nat.succ_pos _

/-- Parentheses may be left out where what holds the text together is tight enough. -/
theorem reads_enclose {n : Nat} {needed : Bool} (hn : 0 < n)
    (h : ∀ level < n, Reads lookup level text t) (hneeded : needed = false → level < n) :
    Reads lookup level (enclose needed text) t := by
  cases needed with
  | true => exact (h 0 hn).grouped
  | false => exact h level (hneeded rfl)

theorem applyUnary_of_isOk {op : UnaryOperator} (hneg : (op != .neg || t.const?.isNone) = true)
    (h : (Term.mkUnary (.unary op) (some t)).isOk = true) :
    (applyUnary op (some (.term t)) : Except (ExprFault ε) _)
      = .ok (some (.term (.unary op t))) := by
  have hbuild : (applyUnary.build op t : Except (ExprFault ε) _)
      = .ok (some (.term (.unary op t))) := by
    unfold applyUnary.build
    unfold Term.mkUnary at h ⊢
    cases hresult : op.resultType? t.type with
    | none => simp [hresult, Except.isOk, Except.toBool] at h
    | some type => simp [hresult]
  cases op with
  | neg =>
      cases t with
      | const c => cases hneg
      | _ => exact hbuild
  | not => exact hbuild

theorem applyBinary_of_isOk {op : Spelling} {a b : Term}
    (h : (Term.mkBinary (.binary op.op) (some a) (some b)).isOk = true) :
    (applyBinary op (some (.term a)) (some (.term b)) : Except (ExprFault ε) _)
      = .ok (some (.term (.binary op.op a b))) := by
  unfold applyBinary
  unfold Term.mkBinary at h ⊢
  cases hresult : op.op.resultType? a.type b.type with
  | none => simp [hresult, Except.isOk, Except.toBool] at h
  | some type => simp [hresult]

/-- A tree as it is written stands for its term, as tightly as it holds together. -/
theorem Formula.reads (env : Origin → Term) (f : Formula) (haccepted : f.accepted env = true)
    (hlookup : ∀ o ∈ f.origins, lookup o = pure (.ok (some (.term (env o))))) :
    ∀ level < f.tightness env, Reads lookup level (f.write env) (f.term env) := by
  induction f with
  | integer l => exact fun _ _ => .integer l
  | truth b => exact fun _ _ => .truth b
  | origin o => exact fun _ _ => .origin o.2 (hlookup o (by simp [origins]))
  | unary op arg ih =>
      intro level _
      simp only [accepted, Bool.and_eq_true] at haccepted
      obtain ⟨⟨harg, hneg⟩, hok⟩ := haccepted
      refine .unary (reads_enclose (arg.tightness_pos env) (ih harg hlookup) fun htight => ?_)
        (applyUnary_of_isOk hneg hok)
      exact Nat.lt_of_not_le (of_decide_eq_false htight)
  | binary op left right ihl ihr =>
      intro level hlevel
      simp only [accepted, Bool.and_eq_true] at haccepted
      obtain ⟨⟨hleft, hright⟩, hok⟩ := haccepted
      obtain ⟨sp, hsp, hop, hrow⟩ : ∃ sp, spelling? (symbol env op left right) = some sp ∧
          sp.op = op ∧ sp.level = precedence (symbol env op left right) :=
        spelling?_symbolFor op _
      have hpos : 0 < precedence (symbol env op left right) := Nat.succ_pos _
      have happly := applyBinary_of_isOk (ε := ε) (hop.symm ▸ hok)
      rw [hop] at happly
      -- On the left an equally tight operand stands alone, on the right it does not.
      refine .binary hsp (hrow ▸ hlevel)
        (reads_enclose (left.tightness_pos env)
          (ihl hleft fun o ho => hlookup o (List.mem_append_left _ ho)) fun htight => ?_)
        (reads_enclose (right.tightness_pos env)
          (ihr hright fun o ho => hlookup o (List.mem_append_right _ ho)) fun htight => ?_) happly
      · have := of_decide_eq_false htight
        omega
      · have := of_decide_eq_false htight
        omega

/-- A tree that is written with parentheses only where precedence and grouping to the left
    need them is read as the term of the tree. -/
theorem parse_write [LawfulMonad m] (env : Origin → Term) (f : Formula)
    (haccepted : f.accepted env = true)
    (hlookup : ∀ o ∈ f.origins, lookup o = pure (.ok (some (.term (env o))))) :
    parse lookup (f.write env) = pure (.ok (some (.term (f.term env)))) :=
  (f.reads env haccepted hlookup 0 (f.tightness_pos env)).parse_eq

/-- Symbols at origins: a truth value at one root, and numbers elsewhere. -/
def gaugeSymbol (o : Origin) : Term :=
  .symbol ⟨o.steps.length, if o.root == "flag" then .boolean else .int, o⟩

/-- The lookup that gives the symbols. -/
def gaugeLookup (o : Origin) : Id (Except OriginError (Option Value)) :=
  pure (.ok (some (.term (gaugeSymbol o))))

/-- A condition in which operands on both sides need parentheses and others do not. -/
def gauge : Formula :=
  let x : Formula := .origin ⟨⟨"p", [.field "x"]⟩, by decide +kernel⟩
  let n : Formula := .origin ⟨⟨"q", [.index "0", .length]⟩, by decide +kernel⟩
  let flag : Formula := .origin ⟨⟨"flag", []⟩, by decide +kernel⟩
  let one : Formula := .integer ⟨"1", by decide, 1, by decide, false⟩
  let three : Formula := .integer ⟨"3", by decide, 3, by decide, false⟩
  let many : Formula := .integer ⟨"0x1F", by decide, 31, by decide, true⟩
  let difference : Formula := .binary ⟨.arithmetic .sub, rfl⟩
    (.binary ⟨.arithmetic .sub, rfl⟩ x one)
    (.binary ⟨.arithmetic .mul, rfl⟩ (.binary ⟨.arithmetic .sub, rfl⟩ n three) (.unary .neg x))
  let odd : Formula := .binary ⟨.comparison .eq, rfl⟩ (.binary ⟨.connective .and, rfl⟩ x one) one
  .binary ⟨.connective .or, rfl⟩
    (.unary .not (.binary ⟨.comparison .lt, rfl⟩ difference many))
    (.binary ⟨.connective .and, rfl⟩ flag odd)

theorem parse_write_gauge :
    gauge.write gaugeSymbol
        = "! (p.x - 1 - (q[0].length - 3) * - p.x < 0x1FL) || flag && (p.x & 1) == 1" ∧
      parse gaugeLookup (gauge.write gaugeSymbol)
        = pure (.ok (some (.term (gauge.term gaugeSymbol)))) :=
  ⟨by decide +kernel, parse_write gaugeSymbol gauge (by decide +kernel) fun _ _ => rfl⟩

end Expression

end PathWitness
