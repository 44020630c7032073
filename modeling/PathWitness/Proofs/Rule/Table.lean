import Mathlib.Data.List.Nodup
import PathWitness.Proofs.Resolution.Outcome

/-!
# Registered Rules and their Keys

The number of a rule in a table is its position there, so the rules of a table
are told apart by their numbers. A firing is identified by a text that is put
together of the number of the rule, the origin and the position of the target.
No two firings share a text: neither a number nor a position has the character in
it that stands between the parts.

## Main definitions

* `Rule.waitsFor`: The rule waits for this resolution.
* `RuleTable.waiting`: The rules that wait for the resolution of a reference.

## Theorems

* `id_of_ofList`, `ids_nodup`: The rules of a table have numbers of their own.
* `matching_eq_waiting`: The rules that a resolution triggers are those that wait
  for it.
* `firingKey_inj`: The parts of a key can be read off it.
-/

namespace PathWitness

namespace RuleTable

variable {t : RuleTable} {specs : List RuleSpec}

/-- Numbers are positions, in a table and after one more rule. -/
theorem id_of_register {t' : RuleTable} {r : RuleSpec}
    (h : ∀ (i : Nat) rule, t.rules[i]? = some rule → rule.id = i) (hr : t.register r = .ok t') :
    ∀ (i : Nat) rule, t'.rules[i]? = some rule → rule.id = i := by
  unfold register at hr
  split at hr
  · rename_i rule hcheck
    rw [← Except.ok.inj hr]
    intro i rule' hi
    rcases getElem?_snoc.1 hi with hold | ⟨rfl, rfl⟩
    · exact h i rule' hold
    · -- A rule that passes the checks has the number it was registered under.
      unfold RuleSpec.check at hcheck
      repeat' split at hcheck
      all_goals first
        | exact absurd hcheck (by simp only [reduceCtorEq, not_false_eq_true])
        | rw [← Except.ok.inj hcheck]; rfl
  · exact absurd hr (by simp only [reduceCtorEq, not_false_eq_true])

/-- The number of a rule is its position in the table. -/
theorem id_of_ofList (h : ofList specs = .ok t) :
    ∀ (i : Nat) rule, t.rules[i]? = some rule → rule.id = i := by
  refine foldlM_induction (P := fun t => ∀ (i : Nat) rule, t.rules[i]? = some rule → rule.id = i)
    (fun t r t' ht hr => id_of_register ht hr) h fun i rule hi => ?_
  exact absurd hi (by simp only [List.getElem?_nil, reduceCtorEq, not_false_eq_true])

/-- The rules of a table have numbers of their own. -/
theorem ids_nodup (h : ofList specs = .ok t) : (t.rules.map Rule.id).Nodup := by
  have hids : t.rules.map Rule.id = List.range t.rules.length := by
    refine List.ext_getElem? fun i => ?_
    rw [List.getElem?_map]
    by_cases hi : i < t.rules.length
    · rw [List.getElem?_range hi, List.getElem?_eq_getElem hi, Option.map_some,
        id_of_ofList h i _ (List.getElem?_eq_getElem hi)]
    · rw [List.getElem?_eq_none_iff.2 (by omega), List.getElem?_eq_none_iff.2
        (by rw [List.length_range]; omega), Option.map_none]
  rw [hids]
  exact List.nodup_range

end RuleTable

/-- The rule waits for this resolution. Only an expansion has a class. -/
def Rule.waitsFor (r : Rule) : Resolution → Bool
  | .null => r.kind == .nulls
  | .aliasOf _ => r.kind == .aliases
  | .fresh _ type => r.kind == .expands && r.className == type

/-- The rules that wait for the resolution of a reference, in the order of their
    registration. -/
def RuleTable.waiting (t : RuleTable) (ref : RefSymbol) (how : Resolution) : List Rule :=
  t.rules.filter fun r => r.origin.text == ref.origin.text && r.waitsFor how

/-- The rules that a resolution triggers are those that wait for it. -/
theorem RuleTable.matching_eq_waiting (t : RuleTable) (ref : RefSymbol) {how : Resolution}
    {className : String} (hclass : ∀ p type, how = .fresh p type → className = type) :
    t.matching ref.origin className how.kind = t.waiting ref how := by
  have haccepts : ∀ r : Rule, r.accepts className how.kind = r.waitsFor how := by
    intro r
    cases how with
    | null =>
        cases hk : r.kind <;> simp only [Rule.accepts, Rule.waitsFor, Resolution.kind, hk] <;> rfl
    | aliasOf p =>
        cases hk : r.kind <;> simp only [Rule.accepts, Rule.waitsFor, Resolution.kind, hk] <;> rfl
    | fresh p type =>
        rw [hclass p type rfl]
        cases hk : r.kind <;> simp only [Rule.accepts, Rule.waitsFor, Resolution.kind, hk] <;> rfl
  unfold matching forOrigin waiting
  rw [List.filter_filter]
  refine List.filter_congr fun r _ => ?_
  rw [haccepts, Bool.and_comm]

section Keys

/-- The first bar ends the text before it. -/
theorem split_first {a b c d : List Char} {x : Char} (ha : x ∉ a) (hc : x ∉ c)
    (h : a ++ x :: b = c ++ x :: d) : a = c ∧ b = d := by
  induction a generalizing c with
  | nil =>
      cases c with
      | nil => exact ⟨rfl, (List.cons.inj h).2⟩
      | cons y c => exact absurd (List.cons.inj h).1 fun hxy => hc (hxy ▸ List.mem_cons_self)
  | cons y a ih =>
      cases c with
      | nil => exact absurd (List.cons.inj h).1 fun hyx => ha (hyx ▸ List.mem_cons_self)
      | cons z c =>
          obtain ⟨hyz, hrest⟩ := List.cons.inj h
          obtain ⟨rfl, rfl⟩ := ih (fun hm => ha (List.mem_cons_of_mem _ hm))
            (fun hm => hc (List.mem_cons_of_mem _ hm)) hrest
          exact ⟨by rw [hyz], rfl⟩

/-- The last bar starts the text after it. -/
theorem split_last {a b c d : List Char} {x : Char} (hb : x ∉ b) (hd : x ∉ d)
    (h : a ++ x :: b = c ++ x :: d) : a = c ∧ b = d := by
  have hreverse : b.reverse ++ x :: a.reverse = d.reverse ++ x :: c.reverse := by
    have := congrArg List.reverse h
    simpa only [List.reverse_append, List.reverse_cons, List.append_assoc,
      List.singleton_append] using this
  obtain ⟨hbd, hac⟩ := split_first (fun hm => hb (List.mem_reverse.1 hm))
    (fun hm => hd (List.mem_reverse.1 hm)) hreverse
  exact ⟨List.reverse_injective hac, List.reverse_injective hbd⟩

theorem bar_not_mem_nat (n : Nat) : '|' ∉ (toString n).toList := by
  intro hmem
  rw [Nat.toString_eq_repr, Nat.repr, String.toList_ofList] at hmem
  exact absurd (Nat.isDigit_of_mem_toDigits (by omega) (by omega) hmem) (by decide)

theorem bar_not_mem_int (i : Int) : '|' ∉ (toString i).toList := by
  cases i with
  | ofNat n => exact bar_not_mem_nat n
  | negSucc n =>
      intro hmem
      have htext : (toString (Int.negSucc n)).toList = '-' :: (toString (n + 1)).toList := by
        change ("-" ++ toString (n + 1)).toList = _
        rw [String.toList_append]
        rfl
      rw [htext] at hmem
      rcases List.mem_cons.1 hmem with hbar | hmem
      · exact absurd hbar (by decide)
      · exact bar_not_mem_nat (n + 1) hmem

/-- The number of the rule and the text of the origin can be read off a key. -/
theorem firingKey_inj {r r' : Rule} {o o' : Origin} {target target' : Target}
    (h : r.firingKey o target = r'.firingKey o' target') :
    r.id = r'.id ∧ o.text = o'.text := by
  have hlist := congrArg String.toList h
  simp only [Rule.firingKey, String.toList_append] at hlist
  have hbar : "|".toList = ['|'] := rfl
  simp only [hbar, List.append_assoc, List.singleton_append] at hlist
  obtain ⟨hid, hrest⟩ := split_first (bar_not_mem_nat _) (bar_not_mem_nat _) hlist
  obtain ⟨htext, -⟩ := split_last (bar_not_mem_int _) (bar_not_mem_int _) hrest
  exact ⟨eq_of_numeral hid, String.toList_inj.1 htext⟩

end Keys

end PathWitness
