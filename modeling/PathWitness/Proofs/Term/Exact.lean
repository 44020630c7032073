import PathWitness.Proofs.Term.WellTyped

/-!
# Evaluation is Exact up to Wrapping Around

Evaluation computes with 64-bit words, whatever the types are, and cuts the
result to the type of the application afterwards. What it is meant to compute is
said here with integers alone: an operation is carried out exactly and wrapped
around to 32 bits, or to 64 bits if an operand is a `long`. No word occurs in
this meaning except in the three connectives, which are defined bit by bit.

That the two agree is one lemma for each family of operators. Cutting a 64-bit
result to 32 bits loses nothing that a 32-bit operation would have kept, because
wrapping around to 64 bits and then to 32 bits is wrapping around to 32 bits. A
shift is the exception, as its distance counts modulo the width; it is carried
out at the width it is meant to have.

## Main definitions

* `Term.IsIntegral`: Every part of a term has an integral type.
* `Exact.cast`: A number in the range of an integral type.
* `BinaryOperator.exact`, `UnaryOperator.exact`: Operators on integers.
* `Term.exact`: The value of a term in exact arithmetic.

## Theorems

* `toInt_emod`, `toInt_and_mask`, `Shift.onWord_exact`: Words and their numbers.
* `Const.value_ofInt64`, `Const.value_convert`: Conversions are casts.
* `BinaryOperator.apply_exact`, `UnaryOperator.apply_exact`: Operators on words
  and on integers agree.
* `Term.eval_eq_exact`: Evaluation agrees with exact arithmetic on all integral
  terms.
* `Term.eval_exact`: The same for a source of integral constants, with what it
  says about divisions by zero.
-/

namespace PathWitness

section Words

variable {w : Nat}

/-- A word without its sign is its number modulo a power of two. -/
theorem toInt_emod (v : BitVec w) : v.toInt % 2 ^ w = v.toNat := by
  have hpow : (2 : Int) ^ w = ((2 ^ w : Nat) : Int) := by push_cast; rfl
  rw [BitVec.toInt_eq_toNat_bmod, hpow, Int.bmod_emod]
  exact Int.emod_eq_of_lt (Int.natCast_nonneg _) (by exact_mod_cast v.isLt)

theorem two_pow_dvd {j k : Nat} (h : j ≤ k) : (2 : Int) ^ j ∣ 2 ^ k := by
  have hdvd := Int.natCast_dvd_natCast.2 (Nat.pow_dvd_pow 2 h)
  push_cast at hdvd
  exact hdvd

/-- Masking with a number of ones is taking the remainder. -/
theorem toInt_and_mask (x : Int64) {k : Nat} (hk : k < 63) :
    (x &&& Int64.ofNat (2 ^ k - 1)).toInt = x.toInt % 2 ^ k := by
  have hlt : 2 ^ k ≤ 2 ^ 62 := Nat.pow_le_pow_right (by omega) (by omega)
  have hpos : 0 < 2 ^ k := Nat.two_pow_pos k
  have hmask : (Int64.ofNat (2 ^ k - 1)).toBitVec.toNat = 2 ^ k - 1 := by
    show (BitVec.ofNat 64 (2 ^ k - 1)).toNat = 2 ^ k - 1
    rw [BitVec.toNat_ofNat]
    exact Nat.mod_eq_of_lt (by omega)
  have hnat : (x.toBitVec &&& (Int64.ofNat (2 ^ k - 1)).toBitVec).toNat
      = x.toBitVec.toNat % 2 ^ k := by
    rw [BitVec.toNat_and, hmask, Nat.and_two_pow_sub_one_eq_mod]
  have hsmall := Nat.mod_lt x.toBitVec.toNat hpos
  show (x.toBitVec &&& (Int64.ofNat (2 ^ k - 1)).toBitVec).toInt = x.toBitVec.toInt % 2 ^ k
  rw [BitVec.toInt_eq_toNat_of_lt (by omega), hnat]
  rw [← Int.emod_emod_of_dvd _ (two_pow_dvd (show k ≤ 64 by omega)), toInt_emod]
  push_cast
  rfl

/-- A word whose number is not negative is that number. -/
theorem toNat_of_toInt {v : BitVec w} {n : Int} (h : v.toInt = n) (hn : 0 ≤ n) :
    v.toNat = n.toNat := by
  have hmod := toInt_emod v
  have hlt : n < 2 ^ w := by
    have hhigh := BitVec.two_mul_toInt_lt (x := v)
    omega
  rw [h, Int.emod_eq_of_lt hn hlt] at hmod
  omega

end Words

/-- The bits in which an operand of an integral type is computed with. -/
def Prim.bits (p : Prim) : Nat :=
  if p = .long then 64 else 32

theorem Prim.bits_le (p : Prim) : p.bits ≤ 64 := by
  cases p <;> decide

namespace Exact

/-- A number as an integral type holds it: a truth value is 0 or 1, a `char` has
    no sign, and all others are in two's complement. -/
def cast (p : Prim) (x : Int) : Int :=
  match p with
  | .boolean => if x = 0 then 0 else 1
  | .byte => x.bmod (2 ^ 8)
  | .char => x % 2 ^ 16
  | .short => x.bmod (2 ^ 16)
  | .int => x.bmod (2 ^ 32)
  | .long => x.bmod (2 ^ 64)
  | .float | .double => x

end Exact

/-- A unary operator on an integer of the given type. -/
def UnaryOperator.exact (op : UnaryOperator) (p : Prim) (x : Int) : Int :=
  match op with
  | neg => (-x).bmod (2 ^ p.bits)
  | not => if x = 0 then 1 else 0

/-- An arithmetic operator on integers. Quotients are truncated toward zero, and
    a remainder has the sign of the dividend. -/
def Arithmetic.exact (op : Arithmetic) (x y : Int) : Option Int :=
  match op with
  | add => some (x + y)
  | sub => some (x - y)
  | mul => some (x * y)
  | div => if y = 0 then none else some (x.tdiv y)
  | rem => if y = 0 then none else some (x.tmod y)

/-- A connective on truth values. -/
def Connective.exactTruth (op : Connective) (x y : Int) : Int :=
  match op with
  | and => if x = 1 ∧ y = 1 then 1 else 0
  | or => if x = 1 ∨ y = 1 then 1 else 0
  | xor => if x = y then 0 else 1

/-- A connective on integers, bit by bit. -/
def Connective.exactBits (op : Connective) (bits : Nat) (x y : Int) : Int :=
  match op with
  | and => (BitVec.ofInt bits x &&& BitVec.ofInt bits y).toInt
  | or => (BitVec.ofInt bits x ||| BitVec.ofInt bits y).toInt
  | xor => (BitVec.ofInt bits x ^^^ BitVec.ofInt bits y).toInt

/-- A shift of an integer of so many bits. A shift to the left multiplies, a
    shift to the right divides and rounds down, without the sign if asked for. -/
def Shift.exact (op : Shift) (bits : Nat) (x : Int) (distance : Nat) : Int :=
  match op with
  | left => (x * 2 ^ distance).bmod (2 ^ bits)
  | right => x / 2 ^ distance
  | unsignedRight => (x % 2 ^ bits / 2 ^ distance).bmod (2 ^ bits)

/-- A comparison of integers. -/
def Comparison.exact (op : Comparison) (x y : Int) : Bool :=
  match op with
  | eq => x = y
  | ne => x ≠ y
  | lt => x < y
  | le => x ≤ y
  | gt => x > y
  | ge => x ≥ y

/-- A binary operator on integers of the given types. There is no result when the
    divisor is zero. -/
def BinaryOperator.exact (op : BinaryOperator) (a b : Prim) (x y : Int) : Option Int :=
  match op with
  | arithmetic o => (o.exact x y).map (Int.bmod · (2 ^ max a.bits b.bits))
  | connective c =>
    some (if a = .boolean then c.exactTruth x y else c.exactBits (max a.bits b.bits) x y)
  | shift s => some (s.exact a.bits x (y % a.bits).toNat)
  | comparison c => some (if c.exact x y then 1 else 0)

/-- The value of a term in exact arithmetic, where `values` gives the numbers its
    symbols stand for. Operands are evaluated from left to right. -/
def Term.exact {ε : Type} (values : PrimSymbol → Except ε Int) : Term → Except (EvalError ε) Int
  | .const c => .ok c.value
  | .symbol s => (values s).mapError .lookup
  | .unary op arg => do
    return op.exact arg.type (← arg.exact values)
  | .binary op left right => do
    let x ← left.exact values
    let y ← right.exact values
    match op.exact left.type right.type x y with
    | some v => return v
    | none => throw (.divisionByZero (.binary op left right))
  | .convert _ dest arg => do
    return Exact.cast dest (← arg.exact values)
  | .apply type name args => .error (.notEvaluable (.apply type name args))

section Operations

variable {x y : Int64}

/-- Wrapping around to 64 bits first makes no difference. -/
theorem bmod_of_bits {bits : Nat} (hbits : bits ≤ 64) (n : Int) :
    (n.bmod (2 ^ 64)).bmod (2 ^ bits) = n.bmod (2 ^ bits) :=
  Int.bmod_bmod_of_dvd (Nat.pow_dvd_pow 2 hbits)

/-- A checked division finds the divisors to be zero that are zero as numbers, and
    otherwise gives what the division gives. -/
theorem checkedDivision_exact {divide : Int64 → Int64 → Option Int64} {t : Prim} {bits : Nat}
    (hcut : Uncut t x y) {r : Int64} {n : Int} (hdivide : y ≠ 0 → divide x y = some r)
    (hr : r.toInt.bmod (2 ^ bits) = n.bmod (2 ^ bits)) :
    (checkedDivision divide t x y).map (fun r => r.toInt.bmod (2 ^ bits))
      = ((if y.toInt = 0 then none else some n).map (Int.bmod · (2 ^ bits))).elim
          (.error .divisionByZero) .ok := by
  have hzero : y = 0 ↔ y.toInt = 0 := by
    rw [← Int64.toInt_zero, Int64.toInt_inj]
  by_cases hy : y = 0
  · rw [if_pos (hzero.1 hy), checkedDivision, if_pos hy]
    rfl
  · rw [if_neg (fun h => hy (hzero.2 h)), checkedDivision_eq hcut hy (hdivide hy)]
    exact congrArg Except.ok hr

/-- Arithmetic on words that is wrapped around afterwards is arithmetic on
    integers that is wrapped around, and both find the same divisors to be
    zero. -/
theorem Arithmetic.onIntegers_exact (o : Arithmetic) {t : Prim} {bits : Nat} (hbits : bits ≤ 64)
    (hcut : Uncut t x y) :
    (o.onIntegers t x y).map (fun r => r.toInt.bmod (2 ^ bits))
      = ((o.exact x.toInt y.toInt).map (Int.bmod · (2 ^ bits))).elim
          (.error .divisionByZero) .ok := by
  cases o with
  | add => simp only [onIntegers, exact, Except.map, Int64.toInt_add, bmod_of_bits hbits,
      Option.map_some, Option.elim_some]
  | sub => simp only [onIntegers, exact, Except.map, Int64.toInt_sub, bmod_of_bits hbits,
      Option.map_some, Option.elim_some]
  | mul => simp only [onIntegers, exact, Except.map, Int64.toInt_mul, bmod_of_bits hbits,
      Option.map_some, Option.elim_some]
  | div =>
      refine checkedDivision_exact hcut (fun hy => if_neg hy) ?_
      rw [Int64.toInt_div, bmod_of_bits hbits]
  | rem =>
      refine checkedDivision_exact hcut (fun hy => if_neg hy) ?_
      rw [Int64.toInt_mod]

/-- A connective works on each bit alone, so the bits that are cut off do not
    matter. -/
theorem Connective.onIntegers_exact (c : Connective) (bits : Nat) :
    (c.onIntegers x y).toInt.bmod (2 ^ bits) = c.exactBits bits x.toInt y.toInt := by
  cases c with
  | and =>
      show (x &&& y).toBitVec.toInt.bmod (2 ^ bits) = _
      rw [← BitVec.toInt_ofInt, Int64.toBitVec_and]
      exact congrArg BitVec.toInt BitVec.signExtend_and
  | or =>
      show (x ||| y).toBitVec.toInt.bmod (2 ^ bits) = _
      rw [← BitVec.toInt_ofInt, Int64.toBitVec_or]
      exact congrArg BitVec.toInt BitVec.signExtend_or
  | xor =>
      show (x ^^^ y).toBitVec.toInt.bmod (2 ^ bits) = _
      rw [← BitVec.toInt_ofInt, Int64.toBitVec_xor]
      exact congrArg BitVec.toInt BitVec.signExtend_xor

/-- The three ways to shift a word. -/
def Shift.onWord {w : Nat} (op : Shift) (v : BitVec w) (distance : Nat) : BitVec w :=
  match op with
  | left => v <<< distance
  | right => v.sshiftRight distance
  | unsignedRight => v >>> distance

/-- Shifting a word shifts its number. -/
theorem Shift.onWord_exact {w : Nat} (s : Shift) (v : BitVec w) (distance : Nat) :
    (s.onWord v distance).toInt = s.exact w v.toInt distance := by
  cases s with
  | left =>
      show (v <<< distance).toInt = (v.toInt * 2 ^ distance).bmod (2 ^ w)
      rw [BitVec.toInt_shiftLeft, Nat.shiftLeft_eq, BitVec.toInt_eq_toNat_bmod]
      push_cast
      rw [Int.bmod_mul_bmod]
  | right =>
      show (v.sshiftRight distance).toInt = v.toInt / 2 ^ distance
      rw [BitVec.toInt_sshiftRight, Int.shiftRight_eq_div_pow]
      push_cast
      rfl
  | unsignedRight =>
      show (v >>> distance).toInt = (v.toInt % 2 ^ w / 2 ^ distance).bmod (2 ^ w)
      rw [toInt_emod, BitVec.toInt_eq_toNat_bmod, BitVec.toNat_ushiftRight,
        Nat.shiftRight_eq_div_pow]
      push_cast
      rfl

/-- A distance that is less than the width is taken as it is. -/
theorem toNat_smod_of_lt {w : Nat} {d m : BitVec w} {n : Int} (hd : d.toInt = n) (hn : 0 ≤ n)
    (hlt : n < m.toInt) : (d.smod m).toNat = n.toNat := by
  apply toNat_of_toInt _ hn
  rw [BitVec.toInt_smod, hd, Int.fmod_eq_emod_of_nonneg _ (by omega)]
  exact Int.emod_eq_of_lt hn hlt

theorem toNat_umod_of_lt {w : Nat} {d m : BitVec w} {n : Int} (hd : d.toInt = n) (hn : 0 ≤ n)
    (hlt : n < m.toNat) : (d % m).toNat = n.toNat := by
  rw [BitVec.toNat_umod, toNat_of_toInt hd hn]
  exact Nat.mod_eq_of_lt (by omega)

theorem Shift.onLongs_exact (s : Shift) :
    (s.onLongs x y).toInt = s.exact 64 x.toInt (y.toInt % 64).toNat := by
  have hd : (y &&& 63).toBitVec.toInt = y.toInt % 64 := toInt_and_mask y (k := 6) (by omega)
  have hn : 0 ≤ y.toInt % 64 := by omega
  have hlt : y.toInt % 64 < 64 := by omega
  have hsmod : ((y &&& 63).toBitVec.smod 64).toNat = (y.toInt % 64).toNat :=
    toNat_smod_of_lt hd hn hlt
  have hword : (s.onLongs x y).toBitVec = s.onWord x.toBitVec (y.toInt % 64).toNat := by
    cases s with
    | left =>
        show (x <<< (y &&& 63)).toBitVec = x.toBitVec <<< (y.toInt % 64).toNat
        rw [Int64.toBitVec_shiftLeft, BitVec.shiftLeft_eq', hsmod]
    | right =>
        show (x >>> (y &&& 63)).toBitVec = x.toBitVec.sshiftRight (y.toInt % 64).toNat
        rw [Int64.toBitVec_shiftRight, BitVec.sshiftRight', hsmod]
    | unsignedRight =>
        show (x.toUInt64 >>> (y &&& 63).toUInt64).toBitVec = x.toBitVec >>> (y.toInt % 64).toNat
        rw [UInt64.toBitVec_shiftRight, BitVec.ushiftRight_eq']
        exact congrArg (x.toBitVec >>> ·) (toNat_umod_of_lt hd hn hlt)
  exact (congrArg BitVec.toInt hword).trans (s.onWord_exact _ _)

theorem Shift.onInts_exact (s : Shift) (x : Int32) :
    (s.onInts x y).toInt = s.exact 32 x.toInt (y.toInt % 32).toNat := by
  have hn : 0 ≤ y.toInt % 32 := by omega
  have hlt : y.toInt % 32 < 32 := by omega
  have hd : (y &&& 31).toInt32.toBitVec.toInt = y.toInt % 32 := by
    show (y &&& 31).toInt32.toInt = _
    rw [Int64.toInt_toInt32, show (y &&& 31).toInt = y.toInt % 32 from
      toInt_and_mask y (k := 5) (by omega)]
    exact Int.bmod_eq_of_le (by omega) (by omega)
  have hsmod : ((y &&& 31).toInt32.toBitVec.smod 32).toNat = (y.toInt % 32).toNat :=
    toNat_smod_of_lt hd hn hlt
  have hword : (s.onInts x y).toBitVec = s.onWord x.toBitVec (y.toInt % 32).toNat := by
    cases s with
    | left =>
        show (x <<< (y &&& 31).toInt32).toBitVec = x.toBitVec <<< (y.toInt % 32).toNat
        rw [Int32.toBitVec_shiftLeft, BitVec.shiftLeft_eq', hsmod]
    | right =>
        show (x >>> (y &&& 31).toInt32).toBitVec = x.toBitVec.sshiftRight (y.toInt % 32).toNat
        rw [Int32.toBitVec_shiftRight, BitVec.sshiftRight', hsmod]
    | unsignedRight =>
        show (x.toUInt32 >>> (y &&& 31).toInt32.toUInt32).toBitVec
          = x.toBitVec >>> (y.toInt % 32).toNat
        rw [UInt32.toBitVec_shiftRight, BitVec.ushiftRight_eq']
        exact congrArg (x.toBitVec >>> ·) (toNat_umod_of_lt hd hn hlt)
  exact (congrArg BitVec.toInt hword).trans (s.onWord_exact _ _)

/-- Comparing words compares their numbers. -/
theorem Comparison.onIntegers_exact (c : Comparison) :
    c.onIntegers x y = c.exact x.toInt y.toInt := by
  have heq : x = y ↔ x.toInt = y.toInt := Int64.toInt_inj.symm
  cases c with
  | eq =>
      apply Bool.eq_iff_iff.2
      simp only [onIntegers, exact, beq_iff_eq, decide_eq_true_eq, heq]
  | ne =>
      apply Bool.eq_iff_iff.2
      simp only [onIntegers, exact, bne_iff_ne, ne_eq, decide_eq_true_eq, heq]
  | lt => exact decide_eq_decide.2 Int64.lt_iff_toInt_lt
  | le => exact decide_eq_decide.2 Int64.le_iff_toInt_le
  | gt => exact decide_eq_decide.2 Int64.lt_iff_toInt_lt
  | ge => exact decide_eq_decide.2 Int64.le_iff_toInt_le

end Operations

namespace Const

/-- What a word is wrapped to is what its number is cast to. -/
theorem value_ofInt64 {p : Prim} (hp : p.isIntegral = true) (r : Int64) :
    (ofInt64 p r).value = Exact.cast p r.toInt := by
  cases p with
  | boolean =>
      by_cases hr : r = 0
      · simp only [hr, value, ofInt64, bne_self_eq_false, toInt64, Bool.false_eq_true, if_false,
          Exact.cast, Int64.toInt_zero, if_true]
      · have hne : r.toInt ≠ 0 := fun h => hr (Int64.toInt_inj.1 h)
        simp only [value, ofInt64, bne_iff_ne.2 hr, toInt64, if_true, Exact.cast, if_neg hne]
        rfl
  | byte => simp only [value, ofInt64, toInt64, Int8.toInt_toInt64, Int64.toInt_toInt8, Exact.cast]
  | char =>
      have hnat : r.toUInt64.toUInt16.toNat = r.toBitVec.toNat % 2 ^ 16 := UInt64.toNat_toUInt16 _
      have hmod := toInt_emod r.toBitVec
      show (Int64.ofNat r.toUInt64.toUInt16.toNat).toInt = r.toBitVec.toInt % 2 ^ 16
      rw [hnat, Int64.toInt_ofNat_of_lt (by omega)]
      omega
  | short =>
      simp only [value, ofInt64, toInt64, Int16.toInt_toInt64, Int64.toInt_toInt16, Exact.cast]
  | int => simp only [value, ofInt64, toInt64, Int32.toInt_toInt64, Int64.toInt_toInt32, Exact.cast]
  | long => exact (Int64.toInt_bmod r).symm
  | float => exact absurd hp (by decide)
  | double => exact absurd hp (by decide)

end Const

/-- A number that a type can hold is held as it is. -/
theorem Exact.cast_of_range {p : Prim} {least greatest x : Int}
    (h : p.range? = some (least, greatest)) (hleast : least ≤ x) (hgreatest : x ≤ greatest) :
    cast p x = x := by
  cases p <;> simp only [Prim.range?, Option.some.injEq, Prod.mk.injEq, reduceCtorEq] at h <;>
    obtain ⟨rfl, rfl⟩ := h
  case boolean =>
    simp only [cast]
    split <;> omega
  case char => exact Int.emod_eq_of_lt (by omega) (by omega)
  all_goals exact Int.bmod_eq_of_le (by omega) (by omega)

namespace Const

/-- Converting a constant is casting its number. -/
theorem value_convert {p : Prim} (hp : p.isIntegral = true) {c : Const}
    (hc : c.type.isIntegral = true) : (c.convert p).value = Exact.cast p c.value := by
  have hfloat : c.isFloating = false := by
    simpa only [isFloating, Prim.isIntegral, Bool.not_eq_true'] using hc
  by_cases htype : c.type = p
  · obtain ⟨least, greatest, hrange⟩ := Prim.exists_range hp
    have hvalue := range_of_type (htype ▸ hrange)
    rw [convert, if_pos htype, Exact.cast_of_range hrange hvalue.1 hvalue.2]
  · simp only [convert, if_neg htype, hfloat, Bool.false_eq_true, if_false]
    exact value_ofInt64 hp c.toInt64

theorem value_boolean (b : Bool) : (boolean b).value = if b then 1 else 0 := by
  cases b <;> rfl

/-- An integral constant counts as true if its number is not zero. -/
theorem toBool_eq {c : Const} (hc : c.type.isIntegral = true) :
    c.toBool = decide (c.value ≠ 0) := by
  have hword : c.toBool = (c.toInt64 != 0) := by
    cases c with
    | float v => exact absurd hc Bool.false_ne_true
    | double v => exact absurd hc Bool.false_ne_true
    | _ => rfl
  apply Bool.eq_iff_iff.2
  rw [hword, bne_iff_ne, decide_eq_true_eq, value, ← Int64.toInt_zero]
  exact not_congr Int64.toInt_inj.symm

/-- The number of a truth value is 0 or 1. -/
theorem value_of_boolean {c : Const} (hc : c.type = .boolean) : c.value = 0 ∨ c.value = 1 := by
  have hrange : c.type.range? = some (0, 1) := by rw [hc]; rfl
  have hvalue := range_of_type hrange
  omega

end Const

/-- Integers are promoted to `long` if one of them is a `long`. -/
theorem Prim.promote_of_integral {a b : Prim} (ha : a.isIntegral = true)
    (hb : b.isIntegral = true) :
    promote a b = if a = long ∨ b = long then long else int := by
  cases a <;> cases b <;> simp_all [promote, isIntegral, isFloating]

/-- A result is wrapped around to the wider one of the operands' types. -/
theorem Exact.cast_promote {a b : Prim} (ha : a.isIntegral = true) (hb : b.isIntegral = true)
    (n : Int) : cast (.promote a b) n = n.bmod (2 ^ max a.bits b.bits) := by
  rw [Prim.promote_of_integral ha hb]
  unfold Prim.bits
  by_cases hlong : a = .long <;> by_cases hlong' : b = .long <;>
    simp only [hlong, hlong', or_true, or_false, or_self, if_true, if_false, Nat.max_self, cast] <;>
    rfl

/-- A unary operator on a constant is the operator on its number. -/
theorem UnaryOperator.apply_exact (op : UnaryOperator) {x : Const}
    (hx : x.type.isIntegral = true) (h : (op.resultType? x.type).isSome = true) :
    (op.apply (op.resultType x.type) x).map Const.value = .ok (op.exact x.type x.value) := by
  cases op with
  | not =>
      simp only [apply, Except.map, Const.value_boolean, Const.toBool_eq hx, exact]
      by_cases hzero : x.value = 0 <;> simp [hzero]
  | neg =>
      have hp : (Prim.promote x.type x.type).isIntegral = true := by
        rw [Prim.isIntegral_promote, hx, Bool.and_true]
      have hf : (Prim.promote x.type x.type).isFloating = false := by
        simpa only [Prim.isIntegral, Bool.not_eq_true'] using hp
      simp only [apply, resultType, hf, Bool.false_eq_true, if_false, Const.integralOf, hp, if_true,
        Except.mapError, Except.map]
      rw [Const.value_ofInt64 hp, Exact.cast_promote hx hx, Nat.max_self, Int64.toInt_neg,
        bmod_of_bits x.type.bits_le]
      rfl

namespace BinaryOperator

variable {x y : Const}

/-- At a promoted type, a result on words is wrapped around. -/
theorem map_value_compute (op : BinaryOperator) {a b : Prim} (ha : a.isIntegral = true)
    (hb : b.isIntegral = true) :
    (op.compute (.promote a b) x y).map Const.value
      = (op.onIntegers (.promote a b) x.toInt64 y.toInt64).map
          (fun r => r.toInt.bmod (2 ^ max a.bits b.bits)) := by
  have hpromote := isInteger_promote ha hb
  rw [compute_integer op hpromote]
  cases op.onIntegers (.promote a b) x.toInt64 y.toInt64 with
  | error e => rfl
  | ok r =>
      simp only [Except.map, Const.value_ofInt64 (Prim.isInteger_iff.1 hpromote).1,
        Exact.cast_promote ha hb]

theorem apply_comparison (c : Comparison) (hx : x.type.isIntegral = true)
    (hy : y.type.isIntegral = true) :
    (comparison c).apply .boolean x y
      = .ok (.boolean (c.exact x.value y.value)) := by
  have hfloat : x.isFloating = false ∧ y.isFloating = false := by
    simpa only [Const.isFloating, Prim.isIntegral, Bool.not_eq_true'] using And.intro hx hy
  simp only [apply, Comparison.onConstants, hfloat.1, hfloat.2, Bool.or_self, Bool.false_eq_true,
    if_false, Comparison.onIntegers_exact, Const.value]

theorem apply_truth (c : Connective) (hx : x.type = .boolean) (hy : y.type = .boolean) :
    ((connective c).apply .boolean x y).map Const.value
      = .ok (c.exactTruth x.value y.value) := by
  have hxi : x.type.isIntegral = true := by rw [hx]; rfl
  have hyi : y.type.isIntegral = true := by rw [hy]; rfl
  show Except.ok (Const.boolean (c.onBooleans x.toBool y.toBool)).value = _
  rw [Const.value_boolean, Const.toBool_eq hxi, Const.toBool_eq hyi]
  rcases Const.value_of_boolean hx with hxv | hxv <;>
    rcases Const.value_of_boolean hy with hyv | hyv <;>
    cases c <;> simp [hxv, hyv, Connective.onBooleans, Connective.exactTruth]

theorem apply_shift (s : Shift) (hx : x.type.isIntegral = true) :
    ((shift s).apply (.promote x.type x.type) x y).map Const.value
      = .ok (s.exact x.type.bits x.value (y.value % x.type.bits).toNat) := by
  show ((shift s).compute _ x y).map Const.value = _
  rw [map_value_compute _ hx hx, Nat.max_self]
  show Except.ok ((s.onIntegers (.promote x.type x.type) x.toInt64 y.toInt64).toInt.bmod _) = _
  by_cases hlong : x.type = .long
  · have hbits : x.type.bits = 64 := if_pos hlong
    have hpromote : Prim.promote x.type x.type = .long := by rw [hlong]; rfl
    rw [hbits, hpromote, Shift.onIntegers, if_pos rfl]
    exact congrArg Except.ok ((Int64.toInt_bmod _).trans s.onLongs_exact)
  · -- The operand has no more than 32 bits, so cutting it changes nothing.
    have hcut : x.toInt64.toInt32.toInt = x.value := by
      rw [← Int32.toInt_toInt64, Const.toInt32_toInt64 hx hlong]
      rfl
    have hbits : x.type.bits = 32 := if_neg hlong
    have hpromote : Prim.promote x.type x.type = .int := by
      rw [Prim.promote_of_integral hx hx, if_neg (by simpa only [or_self] using hlong)]
    rw [hbits, hpromote, Shift.onIntegers, if_neg (by decide), Int32.toInt_toInt64, ← hcut]
    exact congrArg Except.ok ((Int32.toInt_bmod _).trans (s.onInts_exact _))

/-- A binary operator on constants is the operator on their numbers; it fails
    where the divisor is zero. -/
theorem apply_exact (op : BinaryOperator) (hx : x.type.isIntegral = true)
    (hy : y.type.isIntegral = true) (h : (op.resultType? x.type y.type).isSome = true) :
    (op.apply (op.resultType x.type y.type) x y).map Const.value
      = (op.exact x.type y.type x.value y.value).elim (.error .divisionByZero) .ok := by
  cases op with
  | comparison c =>
      simp only [resultType, apply_comparison c hx hy, Except.map, Const.value_boolean, exact,
        Option.elim_some]
  | connective c =>
      by_cases hboth : x.type = .boolean ∧ y.type = .boolean
      · rw [resultType, if_pos hboth, apply_truth c hboth.1 hboth.2, exact, if_pos hboth.1]
        rfl
      · have hint : x.type.isInteger = true ∧ y.type.isInteger = true := by
          simpa only [resultType?, if_neg hboth, Option.isSome_ite, Bool.and_eq_true] using h
        rw [resultType, if_neg hboth, exact, if_neg (Prim.isInteger_iff.1 hint.1).2]
        show ((connective c).compute _ x y).map Const.value = _
        rw [map_value_compute _ hx hy]
        exact congrArg Except.ok (c.onIntegers_exact _)
  | shift s => simp only [resultType, apply_shift s hx, exact, Option.elim_some]
  | arithmetic o =>
      simp only [resultType, apply, map_value_compute _ hx hy]
      exact o.onIntegers_exact (Nat.max_le.2 ⟨x.type.bits_le, y.type.bits_le⟩)
        (uncut_of_promote x y)

end BinaryOperator

/-- Every part of the term has an integral type, and no named function is
    applied. -/
def Term.IsIntegral : Term → Prop
  | .const c => c.type.isIntegral = true
  | .symbol s => s.type.isIntegral = true
  | .unary op arg => (op.resultType arg.type).isIntegral = true ∧ arg.IsIntegral
  | .binary op left right =>
    (op.resultType left.type right.type).isIntegral = true ∧ left.IsIntegral ∧ right.IsIntegral
  | .convert _ dest arg => dest.isIntegral = true ∧ arg.IsIntegral
  | .apply _ _ _ => False

/-- The numbers that integral symbols stand for: the constants that a source
    gives, each converted to the type of its symbol. -/
def Gives {ε : Type} (source : PrimSymbol → Except ε Const) (values : PrimSymbol → Except ε Int) :
    Prop :=
  ∀ s : PrimSymbol, s.type.isIntegral = true →
    values s = (source s).map fun c => (c.convert s.type).value

/-- The numbers that symbols stand for, where a source gives them integral
    constants. -/
def castValues {ε : Type} (source : PrimSymbol → Except ε Const) (s : PrimSymbol) :
    Except ε Int :=
  (source s).map fun c => Exact.cast s.type c.value

theorem gives_castValues {ε : Type} {source : PrimSymbol → Except ε Const}
    (hsource : ∀ s c, source s = .ok c → c.type.isIntegral = true) :
    Gives source (castValues source) := by
  intro s hs
  unfold castValues
  cases hc : source s with
  | error e => rfl
  | ok c => exact congrArg Except.ok (Const.value_convert hs (hsource s c hc)).symm

namespace Term

variable {ε : Type} {source : PrimSymbol → Except ε Const}

theorem IsIntegral.type_isIntegral {t : Term} (h : t.IsIntegral) : t.type.isIntegral = true := by
  cases t with
  | const c => exact h
  | symbol s => exact h
  | unary op arg => exact h.1
  | binary op left right => exact h.1
  | convert d dest arg => exact h.1
  | apply type name args => exact h.elim

/-- The value of a well-typed term has the type of the term. -/
theorem type_of_eval {t : Term} (ht : t.WellTyped) {c : Const} (h : t.eval source = .ok c) :
    c.type = t.type := by
  rcases ht.eval_cases source with ⟨c', hc', htype⟩ | ⟨e, he, -⟩
  · rw [h] at hc'
    rw [Except.ok.inj hc', htype]
  · exact absurd (he.symm.trans h) (by simp only [reduceCtorEq, not_false_eq_true])

/-- The failure of an operation is told as a failure of the evaluation. -/
theorem map_mapError {r : Except OperationError Const} {o : Option Int}
    (h : r.map Const.value = o.elim (.error .divisionByZero) .ok)
    (inject : OperationError → EvalError ε) :
    (r.mapError inject).map Const.value = o.elim (.error (inject .divisionByZero)) .ok := by
  cases r with
  | error e =>
      cases o with
      | none => rw [Except.error.inj h]; rfl
      | some v => cases h
  | ok c =>
      cases o with
      | none => cases h
      | some v => exact congrArg Except.ok (Except.ok.inj h)

/-- Evaluation of an integral term agrees with exact arithmetic, also where it
    fails. -/
theorem eval_eq_exact {values : PrimSymbol → Except ε Int} (hvalues : Gives source values) :
    ∀ (t : Term), t.WellTyped → t.IsIntegral → (t.eval source).map Const.value = t.exact values
  | .const c, _, _ => rfl
  | .symbol s, _, hs => by
      simp only [eval, exact, hvalues s hs]
      cases source s <;> rfl
  | .unary op arg, ⟨hop, harg⟩, ⟨_, hint⟩ => by
      have ih := eval_eq_exact hvalues arg harg hint
      simp only [eval, exact, ← ih]
      cases hx : arg.eval source with
      | error e => rfl
      | ok x =>
          have htype := type_of_eval harg hx
          have happly := op.apply_exact (htype ▸ hint.type_isIntegral) (htype ▸ hop)
          rw [htype] at happly
          exact map_mapError (o := some (op.exact arg.type x.value)) happly _
  | .binary op left right, ⟨hop, hleft, hright⟩, ⟨_, hli, hri⟩ => by
      have ihl := eval_eq_exact hvalues left hleft hli
      have ihr := eval_eq_exact hvalues right hright hri
      simp only [eval, exact, ← ihl, ← ihr]
      cases hx : left.eval source with
      | error e => rfl
      | ok x =>
          cases hy : right.eval source with
          | error e => rfl
          | ok y =>
              have hxtype := type_of_eval hleft hx
              have hytype := type_of_eval hright hy
              have happly := op.apply_exact (hxtype ▸ hli.type_isIntegral)
                (hytype ▸ hri.type_isIntegral) (hxtype ▸ hytype ▸ hop)
              rw [hxtype, hytype] at happly
              refine (map_mapError happly _).trans ?_
              show _ = match op.exact left.type right.type x.value y.value with
                | some v => Except.ok v
                | none => Except.error (EvalError.divisionByZero (.binary op left right))
              cases op.exact left.type right.type x.value y.value <;> rfl
  | .convert direction dest arg, ht, ⟨hdest, hint⟩ => by
      have harg : arg.WellTyped := ht
      have ih := eval_eq_exact hvalues arg harg hint
      simp only [eval, exact, ← ih]
      cases hx : arg.eval source with
      | error e => rfl
      | ok x =>
          have htype := type_of_eval harg hx
          exact congrArg Except.ok (Const.value_convert hdest (htype ▸ hint.type_isIntegral))
  | .apply type name args, _, hint => hint.elim

/-- For every source of integral constants, evaluation of an integral term gives
    what exact arithmetic gives, at the type of the term. It finds a division by
    zero exactly where exact arithmetic does, and no division by zero is carried
    out. -/
theorem eval_exact {t : Term} (ht : t.Built) (hint : t.IsIntegral)
    (hsource : ∀ s c, source s = .ok c → c.type.isIntegral = true) :
    (t.eval source).map (fun c => (c.type, c.value))
      = (t.exact (castValues source)).map (fun v => (t.type, v)) ∧
    (∀ s, t.eval source = .error (.divisionByZero s) ↔
      t.exact (castValues source) = .error (.divisionByZero s)) ∧
    t.eval source ≠ .error .trap := by
  have hexact := eval_eq_exact (gives_castValues hsource) t ht.wellTyped hint
  rw [← hexact]
  rcases ht.wellTyped.eval_cases source with ⟨c, hc, htype⟩ | ⟨e, he, hfrom⟩
  · rw [hc]
    refine ⟨?_, fun s => ?_, by simp only [ne_eq, reduceCtorEq, not_false_eq_true]⟩
    · simp only [Except.map, htype]
    · simp only [Except.map, reduceCtorEq]
  · rw [he]
    refine ⟨rfl, fun s => ?_, fun htrap => ?_⟩
    · simp only [Except.map, Except.error.injEq]
    · rw [Except.error.inj htrap] at hfrom
      cases hfrom

/-- The quotient of two symbols, shifted by more than the width of an `int`:
    `x / y >>> 33`. -/
def shiftedQuotient : Term :=
  .binary (.shift .unsignedRight)
    (.binary (.arithmetic .div) (.symbol ⟨0, .int, .ofRoot "x"⟩) (.symbol ⟨1, .byte, .ofRoot "y"⟩))
    (.const (.long 33))

/-- The least `int` for the first symbol, and minus one for all others. -/
def leastAndMinusOne (s : PrimSymbol) : Except Empty Const :=
  if s.number = 0 then .ok (.int (-2147483648)) else .ok (.byte (-1))

/-- The quotient wraps around to the least `int`, and the distance of the shift
    counts as one. -/
theorem eval_exact_least :
    shiftedQuotient.Built ∧ shiftedQuotient.IsIntegral ∧
    (∀ s c, leastAndMinusOne s = .ok c → c.type.isIntegral = true) ∧
    shiftedQuotient.exact (castValues leastAndMinusOne) = .ok 1073741824 ∧
    (shiftedQuotient.eval leastAndMinusOne).map (fun c => (c.type, c.value))
      = .ok (.int, 1073741824) := by
  have hbuilt : shiftedQuotient.Built := by
    unfold shiftedQuotient
    exact .of_binary (.of_binary (.symbol _) (.symbol _) rfl) (.const _) rfl
  have hint : shiftedQuotient.IsIntegral := ⟨rfl, ⟨rfl, rfl, rfl⟩, rfl⟩
  have hsource : ∀ s c, leastAndMinusOne s = .ok c → c.type.isIntegral = true := by
    intro s c h
    unfold leastAndMinusOne at h
    split at h <;> rw [← Except.ok.inj h] <;> rfl
  have hvalue : shiftedQuotient.exact (castValues leastAndMinusOne) = .ok 1073741824 := rfl
  refine ⟨hbuilt, hint, hsource, hvalue, ?_⟩
  rw [(eval_exact hbuilt hint hsource).1, hvalue]
  rfl

end Term

end PathWitness
