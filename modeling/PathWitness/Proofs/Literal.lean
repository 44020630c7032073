import PathWitness.Literal
import PathWitness.Proofs.Number.Numeral

/-!
# Literals of Integral Constants

A constant is written as a literal in one place and read from one in another, and the two
know nothing of each other. The writer puts a letter behind a long and writes a boolean as a
number or as a word. The reader trims white space and letters, finds out the base of a
numeral from its first digits, and wraps what it has read to the width of the type. A
literal that was written has nothing to trim except the letter, it is in decimal, and what
it denotes is in the range of its type. So the constant is read back.

## Theorems

* `Text.trim_of_no_blank`: A text without white space is not trimmed.
* `Const.ofInt64_toInt64`: A constant is made from its value.
* `Const.ofLiteralOf_integerText`: A numeral is read with a letter or without it.
* `Const.ofLiteral_written`: Integral constants are read back from their texts.
-/

namespace PathWitness

namespace Text

variable {p : Char → Bool} {c : Char} {cs : List Char}

theorem dropEndWhile_concat_of_pos (h : p c = true) :
    dropEndWhile p (cs ++ [c]) = dropEndWhile p cs := by
  simp [dropEndWhile, h]

theorem dropEndWhile_concat_of_neg (h : p c = false) :
    dropEndWhile p (cs ++ [c]) = cs ++ [c] := by
  simp [dropEndWhile, h]

theorem dropEndWhile_of_all (h : ∀ c ∈ cs, p c = false) : dropEndWhile p cs = cs := by
  cases cs using List.reverseRecOn with
  | nil => rfl
  | append_singleton cs c =>
      exact dropEndWhile_concat_of_neg (h c (List.mem_append_right cs List.mem_cons_self))

/-- A text without white space is not trimmed. -/
theorem trim_of_no_blank {s : String} (h : ∀ c ∈ s.toList, isBlank c = false) : trim s = s := by
  have hstart : s.toList.dropWhile isBlank = s.toList := by
    cases hs : s.toList with
    | nil => rfl
    | cons c rest =>
        rw [List.dropWhile_cons_of_neg]
        exact Bool.eq_false_iff.1 (h c (hs ▸ List.mem_cons_self))
  rw [trim, hstart, dropEndWhile_of_all h, String.ofList_toList]

end Text

namespace Number

variable {c : Char}

/-- A digit is neither white space nor a letter behind a number. -/
theorem plain_of_isDigit (h : isDigit c = true) :
    Text.isBlank c = false ∧ ['l', 'L'].contains c = false := by
  have hplain : ∀ n < 58, 48 ≤ n → Text.isBlank (Char.ofNat n) = false ∧
      ['l', 'L'].contains (Char.ofNat n) = false := by decide
  have hrange := Bool.and_eq_true_iff.1 h
  have hlow : '0' ≤ c := of_decide_eq_true hrange.1
  have hhigh : c ≤ '9' := of_decide_eq_true hrange.2
  have hc := hplain c.toNat (Nat.lt_succ_of_le hhigh) hlow
  rwa [Char.ofNat_toNat] at hc

/-- The numeral of an integer has nothing in it that is trimmed. -/
theorem plain_of_mem_toString {i : Int} (h : c ∈ (toString i).toList) :
    Text.isBlank c = false ∧ ['l', 'L'].contains c = false := by
  rw [toList_toString] at h
  split at h
  · rcases List.mem_cons.1 h with rfl | h
    · decide
    · exact plain_of_isDigit (isDigit_of_mem_toDigits h)
  · exact plain_of_isDigit (isDigit_of_mem_toDigits h)

end Number

namespace Const

/-- A constant is made from its value. -/
theorem ofInt64_toInt64 {c : Const} (h : c.type.isIntegral = true) :
    ofInt64 c.type c.toInt64 = c := by
  cases c with
  | boolean b => cases b <;> rfl
  | byte v => exact congrArg byte (Int8.toInt8_toInt64 v)
  | char v =>
      refine congrArg char (UInt16.toNat_inj.1 ?_)
      have hhigh := v.toNat_lt
      have hwide : (char v).toInt64.toUInt64.toNat = v.toNat :=
        UInt64.toNat_ofNat_of_lt (Nat.lt_trans hhigh (by decide))
      rw [UInt64.toNat_toUInt16, hwide]
      exact Nat.mod_eq_of_lt hhigh
  | short v => exact congrArg short (Int16.toInt16_toInt64 v)
  | int v => exact congrArg int (Int32.toInt32_toInt64 v)
  | long v => rfl
  | float v => cases h
  | double v => cases h

/-- A numeral is read, with the letter of a long behind it or without it. -/
theorem ofLiteralOf_integerText {p : Prim} (hinteger : p.isInteger = true) (v : Int64)
    (long : Bool) :
    ofLiteralOf p (integerText v ++ if long then "L" else "") = .ok (ofInt64 p v) := by
  have hblank : ∀ c ∈ (integerText v ++ if long then "L" else "").toList,
      Text.isBlank c = false := by
    intro c hc
    rcases List.mem_append.1 (String.toList_append ▸ hc) with hc | hc
    · exact (Number.plain_of_mem_toString hc).1
    · cases long with
      | true =>
          obtain rfl : c = 'L' := by simpa using hc
          decide
      | false => cases hc
  have htrim : Text.trimEndOf ['l', 'L'] (integerText v ++ if long then "L" else "").toList
      = (toString v.toInt).toList := by
    have hplain : Text.trimEndOf ['l', 'L'] (toString v.toInt).toList = (toString v.toInt).toList :=
      Text.dropEndWhile_of_all fun c hc => (Number.plain_of_mem_toString hc).2
    cases long with
    | true =>
        rw [String.toList_append]
        exact (Text.dropEndWhile_concat_of_pos (by decide)).trans hplain
    | false =>
        rw [String.toList_append]
        exact (congrArg _ (List.append_nil _)).trans hplain
  obtain ⟨hboolean, hfloating⟩ : p ≠ .boolean ∧ p.isFloating = false := by
    cases p <;> simp_all [Prim.isInteger, Prim.isIntegral, Prim.isFloating]
  simp only [ofLiteralOf, Text.trim_of_no_blank hblank, if_neg hboolean, hfloating,
    Bool.false_eq_true, if_false, htrim, Number.parseInteger_toString]

/-- An integral constant is read back from its literal. -/
theorem ofLiteralOf_literal {c : Const} (h : c.type.isIntegral = true) :
    ofLiteralOf c.type c.literal = .ok c := by
  -- All but booleans are written as a numeral, with a letter behind it or not.
  have hnumeral : ∀ {c : Const} (long : Bool), c.type.isInteger = true →
      c.literal = integerText c.toInt64 ++ (if long then "L" else "") →
      ofLiteralOf c.type c.literal = .ok c := by
    intro c long hinteger hliteral
    rw [hliteral, ofLiteralOf_integerText hinteger,
      ofInt64_toInt64 (Bool.and_eq_true_iff.1 hinteger).1]
  cases c with
  | boolean b => cases b <;> decide
  | byte v => exact hnumeral false rfl String.append_empty.symm
  | char v => exact hnumeral false rfl String.append_empty.symm
  | short v => exact hnumeral false rfl String.append_empty.symm
  | int v => exact hnumeral false rfl String.append_empty.symm
  | long v => exact hnumeral true rfl rfl
  | float v => cases h
  | double v => cases h

/-- An integral constant is read back from its text. -/
theorem ofLiteralOf_text {c : Const} (h : c.type.isIntegral = true) :
    ofLiteralOf c.type c.text = .ok c := by
  by_cases hboolean : ∃ b, c = .boolean b
  · obtain ⟨b, rfl⟩ := hboolean
    cases b <;> decide
  · rw [text.eq_3 c (fun hc => hboolean ⟨true, hc⟩) (fun hc => hboolean ⟨false, hc⟩)]
    exact ofLiteralOf_literal h

/-- Integral constants are read back from both of their texts. -/
theorem ofLiteral_written (p : Prim) (hp : p.isIntegral = true) (n : Int64) :
    ∃ v, integral p.descriptor n = .ok v ∧ v.type = p ∧
      ofLiteral p.descriptor v.literal = .ok v ∧ ofLiteral p.descriptor v.text = .ok v := by
  have htype : (ofInt64 p n).type.isIntegral = true := by rw [type_ofInt64, hp]
  have hliteral := ofLiteralOf_literal htype
  have htext := ofLiteralOf_text htype
  rw [type_ofInt64] at hliteral htext
  refine ⟨ofInt64 p n, ?_, type_ofInt64 p n, ?_, ?_⟩
  · simp only [integral, Prim.ofDescriptor?_descriptor, integralOf, hp, if_true]
  · simpa only [ofLiteral, Prim.ofDescriptor?_descriptor] using hliteral
  · simpa only [ofLiteral, Prim.ofDescriptor?_descriptor] using htext

/-- The least long has a literal, although its magnitude is no long. -/
theorem ofLiteral_written_least : Prim.long.isIntegral = true ∧
    ∃ v, integral Prim.long.descriptor Int64.minValue = .ok v ∧ v.type = .long ∧
      ofLiteral Prim.long.descriptor v.literal = .ok v ∧
      ofLiteral Prim.long.descriptor v.text = .ok v :=
  ⟨rfl, ofLiteral_written .long rfl Int64.minValue⟩

end Const

end PathWitness
