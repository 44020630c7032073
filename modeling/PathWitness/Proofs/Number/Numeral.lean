import Mathlib.Data.Nat.Digits.Lemmas
import PathWitness.Number.Numeral

/-!
# Decimal Numerals

A numeral is read digit by digit from the left, and it is the same reading for the digits
of an index and for those of a literal. What the digits denote does not depend on zeros in
front of them; without such zeros the digits can be read off the number.

A literal that starts with a zero is in another base than ten. The digits in which numbers
are shown start with a zero only if the number is zero, so they are read in base ten.

## Theorems

* `readDigits_of_digits`: Digits are read from the left.
* `eq_of_ofDigitChars`: Digits without zeros in front can be read off the number.
* `parseNatural_toDigits`: The digits of a number are read as the number.
* `parseInteger_toString`: An integer is read back from its numeral.
-/

namespace PathWitness

namespace Number

variable {cs ds : List Char} {c : Char}

theorem digitValue?_of_isDigit (h : isDigit c = true) :
    digitValue? c = some (c.toNat - '0'.toNat) ∧ c.toNat - '0'.toNat < 10 := by
  have hrange := Bool.and_eq_true_iff.1 h
  have hlow : '0' ≤ c := of_decide_eq_true hrange.1
  have hhigh : c ≤ '9' := of_decide_eq_true hrange.2
  refine ⟨if_pos ⟨hlow, hhigh⟩, ?_⟩
  have hle : c.toNat ≤ '9'.toNat := hhigh
  have hnine : '9'.toNat = 57 := rfl
  have hzero : '0'.toNat = 48 := rfl
  omega

/-- Digits are read from the left. -/
theorem readDigits_of_digits (h : ∀ c ∈ cs, isDigit c = true) (n : Nat) :
    readDigits 10 n cs = some (Nat.ofDigitChars 10 cs n) := by
  induction cs generalizing n with
  | nil => rfl
  | cons c rest ih =>
      have hc := h c List.mem_cons_self
      obtain ⟨hvalue, hlt⟩ := digitValue?_of_isDigit hc
      have hmark : c ≠ '_' := by
        rintro rfl
        exact absurd hc (by decide)
      rw [readDigits.eq_3 10 n c rest fun heq => hmark heq, hvalue]
      simp only [if_pos hlt, Nat.ofDigitChars_cons]
      rw [ih (fun d hd => h d (List.mem_cons_of_mem c hd)), Nat.mul_comm]

/-- Zeros in front do not count. -/
theorem ofDigitChars_dropWhile (cs : List Char) :
    Nat.ofDigitChars 10 (cs.dropWhile (· == '0')) 0 = Nat.ofDigitChars 10 cs 0 := by
  induction cs with
  | nil => rfl
  | cons c rest ih =>
      by_cases hc : c = '0'
      · rw [List.dropWhile_cons_of_pos (by simpa using hc), ih, hc, Nat.ofDigitChars_cons]
        rfl
      · rw [List.dropWhile_cons_of_neg (by simpa using hc)]

/-- The number of a text of digits, with the last digit first. -/
theorem ofDigitChars_eq_ofDigits (cs : List Char) :
    Nat.ofDigitChars 10 cs 0 = Nat.ofDigits 10 (cs.map (·.toNat - '0'.toNat)).reverse := by
  induction cs using List.reverseRecOn with
  | nil => rfl
  | append_singleton cs c ih =>
      rw [Nat.ofDigitChars_append, ih, List.map_append, List.reverse_append]
      simp only [Nat.ofDigitChars_cons, Nat.ofDigitChars_nil, List.map_cons, List.map_nil,
        List.reverse_singleton, List.singleton_append, Nat.ofDigits_cons]
      omega

/-- Digits without zeros in front can be read off the number. -/
theorem eq_of_ofDigitChars (hcs : ∀ c ∈ cs, isDigit c = true) (hds : ∀ c ∈ ds, isDigit c = true)
    (hcs' : cs.head? ≠ some '0') (hds' : ds.head? ≠ some '0')
    (h : Nat.ofDigitChars 10 cs 0 = Nat.ofDigitChars 10 ds 0) : cs = ds := by
  have hback : ∀ {cs : List Char}, (∀ c ∈ cs, isDigit c = true) → cs.head? ≠ some '0' →
      Nat.digits 10 (Nat.ofDigitChars 10 cs 0) = (cs.map (·.toNat - '0'.toNat)).reverse := by
    intro cs hcs hhead
    rw [ofDigitChars_eq_ofDigits]
    refine Nat.digits_ofDigits 10 (by decide) _ (fun d hd => ?_) fun hne => ?_
    · obtain ⟨c, hc, rfl⟩ := List.mem_map.1 (List.mem_reverse.1 hd)
      exact (digitValue?_of_isDigit (hcs c hc)).2
    · cases cs with
      | nil => exact absurd rfl hne
      | cons c rest =>
          simp only [List.map_cons, List.reverse_cons, List.getLast_concat]
          have hlow : '0' ≤ c :=
            of_decide_eq_true (Bool.and_eq_true_iff.1 (hcs c List.mem_cons_self)).1
          have hle : '0'.toNat ≤ c.toNat := hlow
          have hc : c.toNat ≠ '0'.toNat := fun heq => hhead (by rw [Char.toNat_inj.1 heq]; rfl)
          omega
  have hforth : ∀ {cs : List Char}, (∀ c ∈ cs, isDigit c = true) →
      (cs.map (·.toNat - '0'.toNat)).map (fun d => Char.ofNat (d + '0'.toNat)) = cs := by
    intro cs hcs
    rw [List.map_map]
    refine (List.map_congr_left fun c hc => ?_).trans (List.map_id cs)
    have hlow : '0' ≤ c := of_decide_eq_true (Bool.and_eq_true_iff.1 (hcs c hc)).1
    have hle : '0'.toNat ≤ c.toNat := hlow
    rw [Function.comp_apply, Nat.sub_add_cancel hle, Char.ofNat_toNat]
    rfl
  have hdigits : cs.map (·.toNat - '0'.toNat) = ds.map (·.toNat - '0'.toNat) := by
    rw [← List.reverse_inj, ← hback hcs hcs', ← hback hds hds', h]
  rw [← hforth hcs, hdigits, hforth hds]

theorem isDigit_of_mem_toDigits {n : Nat} (h : c ∈ Nat.toDigits 10 n) : isDigit c = true := by
  have hrange := Nat.isDigit_of_mem_toDigits (by omega) (by omega) h
  simpa [isDigit, Char.isDigit, Char.le_def] using hrange

/-- The digits of a number do not start with a zero, unless it is zero. -/
theorem head?_toDigits {n : Nat} (hn : 0 < n) : (Nat.toDigits 10 n).head? ≠ some '0' := by
  induction n using Nat.strongRecOn with
  | ind n ih =>
      by_cases hlt : n < 10
      · rw [Nat.toDigits_of_lt_base hlt]
        interval_cases n <;> decide
      · rw [Nat.toDigits_of_base_le (by omega) (by omega),
          List.head?_append_of_ne_nil _ Nat.toDigits_ne_nil]
        exact ih (n / 10) (by omega) (by omega)

/-- The digits of a number are read as the number. -/
theorem parseNatural_toDigits (n : Nat) : parseNatural (Nat.toDigits 10 n) = some n := by
  by_cases hn : n = 0
  · rw [hn]
    decide
  · have hall : ∀ c ∈ Nat.toDigits 10 n, isDigit c = true := fun c => isDigit_of_mem_toDigits
    have hhead := head?_toDigits (Nat.pos_of_ne_zero hn)
    have hbase : splitBase (Nat.toDigits 10 n) = (10, Nat.toDigits 10 n) := by
      unfold splitBase
      split
      · simp_all
      · simp_all
      · rfl
    have hplain : (Nat.toDigits 10 n).contains '_' = false := by
      rw [List.contains_eq_mem, decide_eq_false_iff_not]
      exact fun hmem => absurd (hall _ hmem) (by decide)
    have hdigits : (Nat.toDigits 10 n).isEmpty = false := by
      simp [Nat.toDigits_ne_nil]
    unfold parseNatural
    simp only [hdigits, hbase, hplain, Bool.false_and, Bool.false_eq_true, if_false,
      readDigits_of_digits hall, Nat.ofDigitChars_ten_toDigits]

/-- Digits have no sign in front of them. -/
theorem splitSign_toDigits (n : Nat) :
    splitSign (Nat.toDigits 10 n) = (false, Nat.toDigits 10 n) := by
  have hall : ∀ c ∈ Nat.toDigits 10 n, isDigit c = true := fun c => isDigit_of_mem_toDigits
  unfold splitSign
  split
  · rename_i rest heq
    exact absurd (hall '-' (heq ▸ List.mem_cons_self)) (by decide)
  · rename_i rest heq
    exact absurd (hall '+' (heq ▸ List.mem_cons_self)) (by decide)
  · rfl

theorem parseInteger_toDigits {n : Nat} (h : n < pow2 63) :
    parseInteger (Nat.toDigits 10 n) = .ok (Int64.ofNat n) := by
  simp [parseInteger, splitSign_toDigits, parseNatural_toDigits, h]

theorem parseInteger_neg_toDigits {n : Nat} (h : n ≤ pow2 63) :
    parseInteger ('-' :: Nat.toDigits 10 n) = .ok (Int64.ofInt (-n)) := by
  simp [parseInteger, splitSign, parseNatural_toDigits, h]

/-- The numeral of an integer: its magnitude in decimal, with a minus in front if needed. -/
theorem toList_toString (i : Int) :
    (toString i).toList = if i < 0 then '-' :: Nat.toDigits 10 i.natAbs
      else Nat.toDigits 10 i.natAbs := by
  cases i with
  | ofNat n =>
      have hnonneg : ¬ Int.ofNat n < 0 := Int.not_lt.2 (Int.natCast_nonneg n)
      rw [if_neg hnonneg, show toString (Int.ofNat n) = toString n from rfl,
        Nat.toString_eq_ofList_toDigits, String.toList_ofList]
      rfl
  | negSucc n =>
      rw [if_pos (Int.negSucc_lt_zero n),
        show toString (Int.negSucc n) = "-" ++ toString (n + 1) from rfl,
        Nat.toString_eq_ofList_toDigits]
      simp

/-- A 64-bit integer is read back from its numeral, at both limits as well. -/
theorem parseInteger_toString (v : Int64) : parseInteger (toString v.toInt).toList = .ok v := by
  have hpow : pow2 63 = 9223372036854775808 := rfl
  have hlow := v.le_toInt
  have hhigh := v.toInt_lt
  rw [toList_toString]
  split
  · rename_i hneg
    rw [parseInteger_neg_toDigits (by omega), Int.ofNat_natAbs_of_nonpos (by omega), Int.neg_neg,
      Int64.ofInt_toInt]
  · rename_i hnonneg
    rw [parseInteger_toDigits (by omega), ← Int64.ofInt_eq_ofNat,
      Int.natAbs_of_nonneg (by omega), Int64.ofInt_toInt]

end Number

end PathWitness
