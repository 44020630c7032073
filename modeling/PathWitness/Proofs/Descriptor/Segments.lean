import Mathlib.Data.List.TakeWhile
import PathWitness.Proofs.Descriptor

/-!
# The Segments of a Method Descriptor

Between its parentheses a method descriptor may have anything, and it is split all the same
as long as it can be. It is cut into segments: brackets and then one octet, or brackets and
then a class up to its first semicolon. An octet is less than a character, so a character
beyond ASCII is cut apart where a type is expected, while in the name of a class it is kept.

No segment is the beginning of another one. So a sequence of octets has at most one
division into segments, and a descriptor is refused exactly if what is between its
parentheses has none.

## Main definitions

* `Text.octet`, `Text.encoding`: Texts as they are stored.
* `Parameter.encoding`: What of a descriptor stands for a parameter.
* `Descriptor.Segment`: Octets that stand for one parameter.

## Theorems

* `Text.map_octets`: Characters are encoded in UTF-8.
* `Segment.append_inj`: No segment is the beginning of another one.
* `takeField_shape`: What is taken off the front of a text.
* `splitFields_segments`, `splitFields_none`: A text is split if it has segments.
* `parameters_unambiguous`: What is written is read, and what is read was written.
-/

namespace PathWitness

namespace Text

/-- The octet of a character that is encoded by one. -/
def octet (c : Char) : UInt8 :=
  UInt8.ofNat c.toNat

/-- The octets of a text. -/
def encoding (cs : List Char) : List UInt8 :=
  cs.flatMap String.utf8EncodeChar

theorem toNat_lt (c : Char) : c.toNat < 0x110000 := by
  rcases c.valid with h | ⟨-, h⟩
  · exact Nat.lt_trans h (by decide)
  · exact h

/-- The encoded form of a character is its encoding in UTF-8. -/
theorem map_octets (c : Char) : (octets c).map UInt8.ofNat = String.utf8EncodeChar c := by
  have hn := toNat_lt c
  unfold octets String.utf8EncodeChar
  rw [show c.val.toNat = c.toNat from rfl]
  -- The forms agree once the leading octet is known to have room for its digits.
  by_cases h1 : c.toNat < 0x80
  · rw [if_pos h1, if_pos (Nat.le_of_lt_succ h1)]
    rfl
  rw [if_neg h1, if_neg fun h => h1 (Nat.lt_succ_of_le h)]
  by_cases h2 : c.toNat < 0x800
  · rw [if_pos h2, if_pos (Nat.le_of_lt_succ h2), Nat.mod_eq_of_lt (by omega : c.toNat / 64 < 32)]
    simp only [List.map_cons, List.map_nil, Nat.div_one, Nat.add_comm]
  rw [if_neg h2, if_neg fun h => h2 (Nat.lt_succ_of_le h)]
  by_cases h3 : c.toNat < 0x10000
  · rw [if_pos h3, if_pos (Nat.le_of_lt_succ h3),
      Nat.mod_eq_of_lt (by omega : c.toNat / 4096 < 16)]
    simp only [List.map_cons, List.map_nil, Nat.div_one, Nat.add_comm]
  · rw [if_neg h3, if_neg fun h => h3 (Nat.lt_succ_of_le h),
      Nat.mod_eq_of_lt (by omega : c.toNat / 262144 < 8)]
    simp only [List.map_cons, List.map_nil, Nat.div_one, Nat.add_comm]

theorem octets_of_ascii {c : Char} (h : c.toNat < 0x80) : octets c = [c.toNat] :=
  if_pos h

/-- A character beyond ASCII has several octets, and none of them is a character. -/
theorem octets_beyond_ascii {c : Char} (h : ¬ c.toNat < 0x80) :
    (∃ first second rest, octets c = first :: second :: rest) ∧
      ∀ v ∈ octets c, 0x80 ≤ v ∧ v < 0x100 := by
  have hn := toNat_lt c
  simp only [octets, if_neg h]
  split
  · exact ⟨⟨_, _, _, rfl⟩, by simp; omega⟩
  · split
    · exact ⟨⟨_, _, _, rfl⟩, by simp; omega⟩
    · exact ⟨⟨_, _, _, rfl⟩, by simp; omega⟩

theorem encoding_append (cs ds : List Char) : encoding (cs ++ ds) = encoding cs ++ encoding ds :=
  List.flatMap_append

/-- Every character has octets. -/
theorem eq_nil_of_encoding {cs : List Char} (h : encoding cs = []) : cs = [] := by
  cases cs with
  | nil => rfl
  | cons c rest =>
      have hc := List.flatMap_eq_nil_iff.1 h c List.mem_cons_self
      exact absurd hc (List.ne_nil_of_length_pos (by simpa using c.utf8Size_pos))

theorem encoding_cons_of_ascii {c : Char} (h : c.toNat < 0x80) (cs : List Char) :
    encoding (c :: cs) = octet c :: encoding cs := by
  rw [encoding, List.flatMap_cons, ← map_octets, octets_of_ascii h]
  rfl

theorem encoding_replicate {c : Char} (h : c.toNat < 0x80) (n : Nat) :
    encoding (List.replicate n c) = List.replicate n (octet c) := by
  induction n with
  | zero => rfl
  | succ n ih => rw [List.replicate_succ, encoding_cons_of_ascii h, ih, List.replicate_succ]

/-- Characters of ASCII can be told apart by their octets. -/
theorem octet_inj {c d : Char} (hc : c.toNat < 0x80) (hd : d.toNat < 0x80)
    (h : octet c = octet d) : c = d := by
  have hnat := congrArg UInt8.toNat h
  simp only [octet, UInt8.toNat_ofNat'] at hnat
  exact Char.toNat_inj.1 (by omega)

/-- An octet of ASCII stands for a character wherever it is. -/
theorem mem_of_octet_mem {m : Char} {cs : List Char} (hm : m.toNat < 0x80)
    (h : octet m ∈ encoding cs) : m ∈ cs := by
  obtain ⟨c, hc, hmem⟩ := List.mem_flatMap.1 h
  rw [← map_octets] at hmem
  by_cases hascii : c.toNat < 0x80
  · rw [octets_of_ascii hascii] at hmem
    exact octet_inj hm hascii (List.mem_singleton.1 hmem) ▸ hc
  · obtain ⟨v, hv, hveq⟩ := List.mem_map.1 hmem
    have hrange := (octets_beyond_ascii hascii).2 v hv
    have hnat := congrArg UInt8.toNat hveq
    simp only [octet, UInt8.toNat_ofNat'] at hnat
    omega

end Text

open Text

/-- The octets of a descriptor that stand for a parameter. -/
def Parameter.encoding : Parameter → List UInt8
  | typed d => Text.encoding d.toList
  | octet n v => List.replicate n (Text.octet '[') ++ [UInt8.ofNat v]

namespace Descriptor

/-- Octets that stand for one parameter. -/
inductive Segment : List UInt8 → Prop where
  /-- One octet, which starts neither a class nor an array. -/
  | single {v : UInt8} (hclass : v ≠ octet 'L') (harray : v ≠ octet '[') : Segment [v]
  /-- A class up to its first semicolon. -/
  | object {name : List UInt8} (hname : octet ';' ∉ name) :
    Segment (octet 'L' :: (name ++ [octet ';']))
  /-- A bracket before a segment. -/
  | array {s : List UInt8} (h : Segment s) : Segment (octet '[' :: s)

namespace Segment

variable {p q r s : List UInt8} {ps qs : List (List UInt8)}

theorem ne_nil (h : Segment p) : p ≠ [] := by
  cases h <;> simp

/-- An octet that is no character of ASCII is a segment. -/
theorem single_of_beyond {v : Nat} (hlow : 0x80 ≤ v) (hhigh : v < 0x100) :
    Segment [UInt8.ofNat v] := by
  have hne : ∀ c : Char, c.toNat < 0x80 → UInt8.ofNat v ≠ octet c := fun c hc heq => by
    have hnat := congrArg UInt8.toNat heq
    simp only [octet, UInt8.toNat_ofNat'] at hnat
    omega
  exact .single (hne 'L' (by decide)) (hne '[' (by decide))

theorem brackets (h : Segment p) (n : Nat) : Segment (List.replicate n (octet '[') ++ p) := by
  induction n with
  | zero => exact h
  | succ n ih => exact .array ih

/-- No segment is the beginning of another one. -/
theorem append_inj (hp : Segment p) (hq : Segment q) (h : p ++ r = q ++ s) : p = q ∧ r = s := by
  induction hp generalizing q with
  | single hclass harray =>
      cases hq with
      | single _ _ => simpa using h
      | object _ => exact absurd (List.cons.inj h).1 hclass
      | array _ => exact absurd (List.cons.inj h).1 harray
  | @object name hname =>
      cases hq with
      | single hclass _ => exact absurd (List.cons.inj h).1.symm hclass
      | @object name' hname' =>
          have htail : name ++ octet ';' :: r = name' ++ octet ';' :: s := by
            simpa using h
          -- Both names end where the first semicolon is.
          have hclear : ∀ {l : List UInt8}, octet ';' ∉ l → ∀ v ∈ l, v ≠ octet ';' :=
            fun hl v hv heq => hl (heq ▸ hv)
          obtain ⟨htake, hdrop⟩ := span_mark (hclear hname) r
          obtain ⟨htake', hdrop'⟩ := span_mark (hclear hname') s
          rw [htail, htake'] at htake
          rw [htail, hdrop'] at hdrop
          exact ⟨by rw [htake], (List.cons.inj hdrop).2.symm⟩
      | array _ => exact absurd (List.cons.inj h).1 (by decide)
  | @array p hp ih =>
      cases hq with
      | single _ harray => exact absurd (List.cons.inj h).1.symm harray
      | object _ => exact absurd (List.cons.inj h).1 (by decide)
      | array hq =>
          obtain ⟨rfl, rfl⟩ := ih hq (List.cons.inj h).2
          exact ⟨rfl, rfl⟩

/-- Octets that start with some segments are divided in no other way. -/
theorem division (hps : ∀ p ∈ ps, Segment p) (hqs : ∀ q ∈ qs, Segment q)
    (h : ps.flatten = qs.flatten ++ r) : ∃ rest, ps = qs ++ rest ∧ rest.flatten = r := by
  induction qs generalizing ps with
  | nil => exact ⟨ps, rfl, h⟩
  | cons q qs ih =>
      have hq := hqs q List.mem_cons_self
      cases ps with
      | nil =>
          rw [List.flatten_nil, List.flatten_cons, List.append_assoc] at h
          exact absurd (List.append_eq_nil_iff.1 h.symm).1 hq.ne_nil
      | cons p ps =>
          rw [List.flatten_cons, List.flatten_cons, List.append_assoc] at h
          obtain ⟨rfl, htail⟩ := append_inj (hps p List.mem_cons_self) hq h
          obtain ⟨rest, rfl, hrest⟩ := ih (fun p hp => hps p (List.mem_cons_of_mem _ hp))
            (fun q hq => hqs q (List.mem_cons_of_mem _ hq)) htail
          exact ⟨rest, rfl, hrest⟩

/-- Octets are divided into segments in at most one way. -/
theorem unique (hps : ∀ p ∈ ps, Segment p) (hqs : ∀ q ∈ qs, Segment q)
    (h : ps.flatten = qs.flatten) : ps = qs := by
  obtain ⟨rest, rfl, hrest⟩ := division hps hqs (h.trans (List.append_nil _).symm)
  cases rest with
  | nil => exact List.append_nil _
  | cons p rest =>
      have hp := hps p (List.mem_append_right _ List.mem_cons_self)
      exact absurd (List.append_eq_nil_iff.1 hrest).1 hp.ne_nil

end Segment

variable {cs field tail : List Char} {fields : List (List Char)}

/-- What is taken off the front of a text: brackets and a character, or brackets and a
    class. -/
theorem takeField_shape (h : takeField cs = some (field, tail)) :
    cs = field ++ tail ∧ ∃ n base, field = List.replicate n '[' ++ base ∧
      ((∃ c, base = [c] ∧ c ≠ '[' ∧ c ≠ 'L') ∨
        ∃ name, base = 'L' :: (name ++ [';']) ∧ ';' ∉ name) := by
  fun_induction takeField cs generalizing field with
  | case1 => cases h
  | case2 rest ih =>
      obtain ⟨⟨f, t⟩, hf, heq⟩ := Option.map_eq_some_iff.1 h
      obtain ⟨rfl, rfl⟩ := Prod.mk.inj heq
      obtain ⟨rfl, n, base, rfl, hbase⟩ := ih hf
      exact ⟨rfl, n + 1, base, rfl, hbase⟩
  | case3 rest hdrop => cases h
  | case4 rest mark t hdrop =>
      obtain ⟨rfl, rfl⟩ := Prod.mk.inj (Option.some.inj h)
      have hmark : mark = ';' := by
        have hstop := List.head?_dropWhile_not (· != ';') rest
        rw [hdrop] at hstop
        simpa using hstop
      have hsplit : rest = rest.takeWhile (· != ';') ++ mark :: t := by
        rw [← hdrop, List.takeWhile_append_dropWhile]
      have hname : ';' ∉ rest.takeWhile (· != ';') := fun hmem => by
        simpa using List.mem_takeWhile_imp hmem
      exact ⟨by simpa using hsplit, 0, _, rfl, .inr ⟨_, by rw [hmark]; rfl, hname⟩⟩
  | case5 c rest harray hclass =>
      obtain ⟨rfl, rfl⟩ := Prod.mk.inj (Option.some.inj h)
      exact ⟨rfl, 0, [c], rfl, .inl ⟨c, rfl, harray, hclass⟩⟩

/-- The parameters of a field are segments, and all of it. -/
def IsCut (field : List Char) : Prop :=
  (∀ p ∈ (Parameter.ofField field).map Parameter.encoding, Segment p) ∧
    ((Parameter.ofField field).map Parameter.encoding).flatten = encoding field

/-- A field that is one segment is kept. -/
theorem ofField_typed (hfield : Parameter.ofField field = [.typed (String.ofList field)])
    (h : Segment (encoding field)) : IsCut field := by
  unfold IsCut
  rw [hfield]
  simp [Parameter.encoding, h]

/-- A character beyond ASCII is cut apart. The brackets stay with its first octet. -/
theorem ofField_octets {c : Char} (hc : ¬ c.toNat < 0x80) (n : Nat) :
    (Parameter.ofField (List.replicate n '[' ++ [c])).map Parameter.encoding =
      ((octets c).map fun v => [UInt8.ofNat v]).modifyHead (List.replicate n (octet '[') ++ ·) := by
  obtain ⟨⟨first, second, rest, hoctets⟩, -⟩ := octets_beyond_ascii hc
  have harray : c ≠ '[' := fun heq => hc (by rw [heq]; decide)
  obtain ⟨hdimensions, hdrop⟩ := split_brackets n [c] (by simp [harray])
  simp only [Parameter.ofField, hdimensions, hdrop, hoctets]
  simp [Parameter.encoding]

theorem encoding_brackets (n : Nat) (base : List Char) :
    encoding (List.replicate n '[' ++ base)
      = List.replicate n (octet '[') ++ encoding base := by
  rw [encoding_append, encoding_replicate (by decide)]

/-- A character of ASCII that starts neither a class nor an array is one segment. -/
theorem ofField_ascii {c : Char} (hascii : c.toNat < 0x80) (harray : c ≠ '[') (hclass : c ≠ 'L')
    (n : Nat) : IsCut (List.replicate n '[' ++ [c]) := by
  obtain ⟨hdimensions, hdrop⟩ := split_brackets n [c] (by simp [harray])
  have hsingle : Segment [octet c] :=
    .single (fun heq => hclass (octet_inj hascii (by decide) heq))
      (fun heq => harray (octet_inj hascii (by decide) heq))
  refine ofField_typed ?_ ?_
  · simp only [Parameter.ofField, hdimensions, hdrop, octets_of_ascii hascii]
  · rw [encoding_brackets, encoding_cons_of_ascii hascii]
    exact hsingle.brackets n

/-- A character beyond ASCII is a segment for each of its octets. -/
theorem ofField_beyond_ascii {c : Char} (hascii : ¬ c.toNat < 0x80) (n : Nat) :
    IsCut (List.replicate n '[' ++ [c]) := by
  obtain ⟨⟨first, second, rest, hoctets⟩, hbeyond⟩ := octets_beyond_ascii hascii
  have hsingle : ∀ v ∈ octets c, Segment [UInt8.ofNat v] := fun v hv =>
    .single_of_beyond (hbeyond v hv).1 (hbeyond v hv).2
  unfold IsCut
  rw [ofField_octets hascii, encoding_brackets, encoding, List.flatMap_singleton, ← map_octets]
  rw [hoctets] at hsingle ⊢
  refine ⟨fun p hp => ?_, by simp [← List.flatMap_def, ← List.map_eq_flatMap]⟩
  rcases List.mem_cons.1 hp with rfl | hp
  · exact (hsingle first List.mem_cons_self).brackets n
  · obtain ⟨v, hv, rfl⟩ := List.mem_map.1 hp
    exact hsingle v (List.mem_cons_of_mem _ hv)

/-- A class is one segment, whatever characters its name has. -/
theorem ofField_class {name : List Char} (hname : ';' ∉ name) (n : Nat) :
    IsCut (List.replicate n '[' ++ 'L' :: (name ++ [';'])) := by
  obtain ⟨hdimensions, hdrop⟩ := split_brackets n ('L' :: (name ++ [';'])) rfl
  -- No octet of a longer character is a semicolon, so the name ends where its text does.
  have hobject : Segment (octet 'L' :: (encoding name ++ [octet ';'])) :=
    .object fun hmem => hname (mem_of_octet_mem (by decide) hmem)
  refine ofField_typed ?_ ?_
  · -- Only a field of a single character could be cut apart.
    obtain ⟨c, rest, hcons⟩ := List.exists_cons_of_ne_nil
      (List.append_ne_nil_of_right_ne_nil name (List.cons_ne_nil ';' []))
    rw [hcons] at hdimensions hdrop ⊢
    simp only [Parameter.ofField, hdimensions, hdrop]
  · rw [encoding_brackets, encoding_cons_of_ascii (by decide), encoding_append,
      encoding_cons_of_ascii (by decide)]
    exact hobject.brackets n

/-- A field is cut into segments. -/
theorem ofField_segments (h : takeField cs = some (field, tail)) : IsCut field := by
  obtain ⟨-, n, base, rfl, hbase⟩ := takeField_shape h
  rcases hbase with ⟨c, rfl, harray, hclass⟩ | ⟨name, rfl, hname⟩
  · by_cases hascii : c.toNat < 0x80
    · exact ofField_ascii hascii harray hclass n
    · exact ofField_beyond_ascii hascii n
  · exact ofField_class hname n

/-- Where no field can be taken off there is no segment. -/
theorem takeField_none (h : takeField cs = none) {p s : List UInt8} (hp : Segment p) :
    p ++ s ≠ encoding cs := by
  fun_induction takeField cs generalizing p with
  | case1 => exact fun heq => hp.ne_nil (List.append_eq_nil_iff.1 heq).1
  | case2 rest ih =>
      rw [encoding_cons_of_ascii (by decide)]
      intro heq
      cases hp with
      | single _ harray => exact harray (List.cons.inj heq).1
      | object _ => exact absurd (List.cons.inj heq).1 (by decide)
      | array hp => exact ih (Option.map_eq_none_iff.1 h) hp (List.cons.inj heq).2
  | case3 rest hdrop =>
      rw [encoding_cons_of_ascii (by decide)]
      intro heq
      cases hp with
      | single hclass _ => exact hclass (List.cons.inj heq).1
      | object _ =>
          have hmem : octet ';' ∈ encoding rest := by
            rw [← (List.cons.inj heq).2]
            simp
          have hne := List.dropWhile_eq_nil_iff.1 hdrop _ (mem_of_octet_mem (by decide) hmem)
          exact absurd hne (by decide)
      | array _ => exact absurd (List.cons.inj heq).1 (by decide)
  | case4 rest mark t hdrop => cases h
  | case5 c rest harray hclass => cases h

/-- What is split is split into segments. -/
theorem splitFields_segments (h : splitFields cs = some fields) :
    (∀ p ∈ (fields.flatMap Parameter.ofField).map Parameter.encoding, Segment p) ∧
      ((fields.flatMap Parameter.ofField).map Parameter.encoding).flatten = encoding cs := by
  fun_induction splitFields cs generalizing fields with
  | case1 cs field tail htaken ih =>
      obtain ⟨rest, hrest, rfl⟩ := Option.map_eq_some_iff.1 h
      obtain ⟨hfield, hflatten⟩ := ofField_segments htaken
      obtain ⟨htail, hflatten'⟩ := ih hrest
      rw [List.flatMap_cons, List.map_append, List.flatten_append, hflatten, hflatten',
        (takeField_shape htaken).1, encoding_append]
      exact ⟨fun p hp => (List.mem_append.1 hp).elim (hfield p) (htail p), rfl⟩
  | case2 cs htaken hempty =>
      obtain rfl := Option.some.inj h
      rw [List.isEmpty_iff.1 hempty]
      exact ⟨by simp, rfl⟩
  | case3 cs htaken hempty => cases h

/-- What is not split has no segments. -/
theorem splitFields_none (h : splitFields cs = none) {ps : List (List UInt8)}
    (hps : ∀ p ∈ ps, Segment p) : ps.flatten ≠ encoding cs := by
  fun_induction splitFields cs generalizing ps with
  | case1 cs field tail htaken ih =>
      intro hflatten
      obtain ⟨hfield, hencoding⟩ := ofField_segments htaken
      rw [(takeField_shape htaken).1, encoding_append, ← hencoding] at hflatten
      obtain ⟨rest, rfl, hrest⟩ := Segment.division hps hfield hflatten
      exact ih (Option.map_eq_none_iff.1 h) (fun p hp => hps p (List.mem_append_right _ hp)) hrest
  | case2 cs htaken hempty => cases h
  | case3 cs htaken hempty =>
      cases ps with
      | nil =>
          intro hflatten
          exact hempty (List.isEmpty_iff.2 (eq_nil_of_encoding hflatten.symm))
      | cons p ps => exact takeField_none htaken (hps p List.mem_cons_self)

/-- What is written is read, and what is read was written. -/
theorem parameters_unambiguous (types : List FieldType) (result d : String)
    (pieces : List (List UInt8)) :
    parameters (ofMethod types result) = .ok (types.map fun t => .typed t.text) ∧
      ((∃ ps, parameters d = .ok ps ∧ ps.map Parameter.encoding = pieces) ↔
        ∃ inner rest, d.toList = '(' :: (inner ++ ')' :: rest) ∧ ')' ∉ inner ∧
          (∀ p ∈ pieces, Segment p) ∧ pieces.flatten = encoding inner) := by
  refine ⟨parameters_ofMethod types result, ?_, ?_⟩
  · rintro ⟨ps, hps, rfl⟩
    obtain ⟨inner, rest, fields, hd, hparen, hfields, rfl⟩ := parameters_eq_ok_iff.1 hps
    exact ⟨inner, rest, hd, hparen, splitFields_segments hfields⟩
  · rintro ⟨inner, rest, hd, hparen, hpieces, hflatten⟩
    cases hfields : splitFields inner with
    | none => exact absurd hflatten (splitFields_none hfields hpieces)
    | some fields =>
        obtain ⟨hsegments, hencoding⟩ := splitFields_segments hfields
        refine ⟨_, parameters_eq_ok_iff.2 ⟨inner, rest, fields, hd, hparen, hfields, rfl⟩, ?_⟩
        exact Segment.unique hsegments hpieces (hencoding.trans hflatten.symm)

/-- Brackets stay with the first octet of a character. -/
example : parameters "([é)V" = .ok [.octet 1 0xc3, .octet 0 0xa9] := by cbv

end Descriptor

end PathWitness
