import Mathlib.Tactic.SplitIfs
import Gatehouse.Base64

/-!
# Base 64 is read back, and only as it is written

Every octet string is read back from its text, and no other text is read as that octet string:
**`Variant.decode?_eq_some_iff`**. The second half is what a signature needs, since a text that
could be varied without changing what it says would be a second signature.

Both halves go group by group. Four digits hold exactly the bits of three octets, and the digits of
a short group have two or four bits to spare, which encoding clears and decoding wants clear. That
a text is read back takes an alphabet that is `Variant.Faithful`; that nothing else is read as the
same octets holds of any alphabet, because the character of a digit is a function of the digit.
-/

namespace Gatehouse.Base64

/-! ## Digits and octets -/

theorem octet_eq {x : UInt8} {n : Nat} (h : n = x.toNat) : UInt8.ofNat n = x := by
  rw [h, UInt8.ofNat_toNat]

theorem toNat_octet {n : Nat} (h : n < 256) : (UInt8.ofNat n).toNat = n :=
  UInt8.toNat_ofNat_of_lt' h

namespace Variant

/-- A character that stands for a digit is the one that the digit is written with. -/
theorem value?_eq_some {v : Variant} {c : Char} {n : Nat} (h : v.value? c = some n) :
    n < 64 ∧ v.char n = c := by
  have hofNat : ∀ m, m = c.toNat → Char.ofNat m = c := fun m hm ↦ by rw [hm, Char.ofNat_toNat]
  rw [value?] at h
  split_ifs at h with hbig hsmall hdigit h62 h63 <;> obtain rfl := Option.some.inj h
  · refine ⟨by omega, ?_⟩
    rw [char, if_pos (by omega)]
    exact hofNat _ (by omega)
  · refine ⟨by omega, ?_⟩
    rw [char, if_neg (by omega), if_pos (by omega)]
    exact hofNat _ (by omega)
  · refine ⟨by omega, ?_⟩
    rw [char, if_neg (by omega), if_neg (by omega), if_pos (by omega)]
    exact hofNat _ (by omega)
  · exact ⟨by omega, h62.symm⟩
  · exact ⟨by omega, h63.symm⟩

/-- Each digit is read back from its character, which is not the one that fills up. -/
structure Faithful (v : Variant) : Prop where
  value?_char : ∀ n < 64, v.value? (v.char n) = some n
  char_ne_fill : ∀ n < 64, v.char n ≠ '='

theorem faithful_standard : standard.Faithful := ⟨by decide, by decide⟩

theorem faithful_urlSafe : urlSafe.Faithful := ⟨by decide, by decide⟩

variable {v : Variant}

/-! ## Groups -/

theorem group_char (hv : v.Faithful) (x y z : UInt8) :
    v.group (v.char (x.toNat / 4)) (v.char (x.toNat % 4 * 16 + y.toNat / 16))
      (v.char (y.toNat % 16 * 4 + z.toNat / 64)) (v.char (z.toNat % 64)) = some [x, y, z] := by
  have hx := x.toNat_lt
  have hy := y.toNat_lt
  have hz := z.toNat_lt
  rw [group, hv.value?_char _ (by omega), hv.value?_char _ (by omega),
    hv.value?_char _ (by omega), hv.value?_char _ (by omega)]
  simp only [Option.some.injEq, List.cons.injEq, and_true]
  exact ⟨octet_eq (by omega), octet_eq (by omega), octet_eq (by omega)⟩

theorem lastTwo_char (hv : v.Faithful) (x y : UInt8) :
    v.lastTwo (v.char (x.toNat / 4)) (v.char (x.toNat % 4 * 16 + y.toNat / 16))
      (v.char (y.toNat % 16 * 4)) = some [x, y] := by
  have hx := x.toNat_lt
  have hy := y.toNat_lt
  rw [lastTwo, hv.value?_char _ (by omega), hv.value?_char _ (by omega),
    hv.value?_char _ (by omega)]
  simp only
  rw [if_pos (by omega)]
  simp only [Option.some.injEq, List.cons.injEq, and_true]
  exact ⟨octet_eq (by omega), octet_eq (by omega)⟩

theorem lastOne_char (hv : v.Faithful) (x : UInt8) :
    v.lastOne (v.char (x.toNat / 4)) (v.char (x.toNat % 4 * 16)) = some [x] := by
  have hx := x.toNat_lt
  rw [lastOne, hv.value?_char _ (by omega), hv.value?_char _ (by omega)]
  simp only
  rw [if_pos (by omega)]
  simp only [Option.some.injEq, List.cons.injEq, and_true]
  exact octet_eq (by omega)

/-- Reading undoes writing, group by group. -/
theorem decodeChars_encodeChars (hv : v.Faithful) (b : Bytes) :
    v.decodeChars (v.encodeChars b) = some b := by
  induction b using encodeChars.induct with
  | case1 x y z rest ih =>
    have hz := z.toNat_lt
    have hfill : (v.char (z.toNat % 64) == '=') = false := by
      simpa using hv.char_ne_fill _ (by omega)
    rw [encodeChars, decodeChars, hfill, Bool.and_false, if_neg Bool.false_ne_true,
      group_char hv, ih]
    rfl
  | case2 x y =>
    have hy := y.toNat_lt
    rw [encodeChars, fill]
    cases hpadded : v.padded with
    | true =>
      have hne : v.char (y.toNat % 16 * 4) ≠ '=' := hv.char_ne_fill _ (by omega)
      simp [decodeChars, hpadded, hne, lastTwo_char hv]
    | false => simp [decodeChars, hpadded, lastTwo_char hv]
  | case3 x =>
    rw [encodeChars, fill]
    cases hpadded : v.padded with
    | true => simp [decodeChars, hpadded, lastOne_char hv]
    | false => simp [decodeChars, hpadded, lastOne_char hv]
  | case4 => rfl

/-! ## One text for every octet string -/

theorem eq_encodeChars_of_lastOne {a b : Char} {o : Bytes}
    (h : v.lastOne a b = some o) : a :: b :: v.fill 2 = v.encodeChars o := by
  rw [lastOne] at h
  split at h
  case h_2 => cases h
  case h_1 m n ha hb =>
    split_ifs at h with hspare
    obtain rfl := Option.some.inj h
    obtain ⟨hm, rfl⟩ := value?_eq_some ha
    obtain ⟨hn, rfl⟩ := value?_eq_some hb
    rw [encodeChars, toNat_octet (by omega)]
    have h1 : (m * 4 + n / 16) / 4 = m := by omega
    have h2 : (m * 4 + n / 16) % 4 * 16 = n := by omega
    rw [h1, h2]

theorem eq_encodeChars_of_lastTwo {a b c : Char} {o : Bytes}
    (h : v.lastTwo a b c = some o) : a :: b :: c :: v.fill 1 = v.encodeChars o := by
  rw [lastTwo] at h
  split at h
  case h_2 => cases h
  case h_1 m n k ha hb hc =>
    split_ifs at h with hspare
    obtain rfl := Option.some.inj h
    obtain ⟨hm, rfl⟩ := value?_eq_some ha
    obtain ⟨hn, rfl⟩ := value?_eq_some hb
    obtain ⟨hk, rfl⟩ := value?_eq_some hc
    rw [encodeChars, toNat_octet (by omega), toNat_octet (by omega)]
    have h1 : (m * 4 + n / 16) / 4 = m := by omega
    have h2 : (m * 4 + n / 16) % 4 * 16 + (n % 16 * 16 + k / 4) / 16 = n := by omega
    have h3 : (n % 16 * 16 + k / 4) % 16 * 4 = k := by omega
    rw [h1, h2, h3]

theorem eq_encodeChars_of_group {a b c d : Char} {o more : Bytes}
    (h : v.group a b c d = some o) :
    a :: b :: c :: d :: v.encodeChars more = v.encodeChars (o ++ more) := by
  rw [group] at h
  split at h
  case h_2 => cases h
  case h_1 m n k l ha hb hc hd =>
    obtain rfl := Option.some.inj h
    obtain ⟨hm, rfl⟩ := value?_eq_some ha
    obtain ⟨hn, rfl⟩ := value?_eq_some hb
    obtain ⟨hk, rfl⟩ := value?_eq_some hc
    obtain ⟨hl, rfl⟩ := value?_eq_some hd
    rw [List.cons_append, List.cons_append, List.cons_append, List.nil_append, encodeChars,
      toNat_octet (by omega), toNat_octet (by omega), toNat_octet (by omega)]
    have h1 : (m * 4 + n / 16) / 4 = m := by omega
    have h2 : (m * 4 + n / 16) % 4 * 16 + (n % 16 * 16 + k / 4) / 16 = n := by omega
    have h3 : (n % 16 * 16 + k / 4) % 16 * 4 + (k % 4 * 64 + l) / 64 = k := by omega
    have h4 : (k % 4 * 64 + l) % 64 = l := by omega
    rw [h1, h2, h3, h4]

/-- What is read was written that way: the bits to spare are clear. -/
theorem eq_encodeChars_of_decodeChars {cs : List Char} {b : Bytes}
    (h : v.decodeChars cs = some b) : cs = v.encodeChars b := by
  induction cs using decodeChars.induct v generalizing b with
  | case1 =>
    obtain rfl := Option.some.inj h
    rfl
  | case2 c => cases h
  -- the last group, short and not filled up
  | case3 a c hpadded => simp [decodeChars, hpadded] at h
  | case4 a c hpadded =>
    rw [decodeChars, if_neg hpadded] at h
    simpa [fill, hpadded] using eq_encodeChars_of_lastOne h
  | case5 a c d hpadded => simp [decodeChars, hpadded] at h
  | case6 a c d hpadded =>
    rw [decodeChars, if_neg hpadded] at h
    simpa [fill, hpadded] using eq_encodeChars_of_lastTwo h
  -- the last group, filled up by two characters or by one
  | case7 a c d rest hlast =>
    rw [decodeChars, if_pos hlast, if_pos rfl] at h
    simp only [Bool.and_eq_true, List.isEmpty_iff, beq_iff_eq] at hlast
    obtain ⟨⟨hpadded, rfl⟩, rfl⟩ := hlast
    simpa [fill, hpadded] using eq_encodeChars_of_lastOne h
  | case8 a c d e rest hlast hne =>
    rw [decodeChars, if_pos hlast, if_neg hne] at h
    simp only [Bool.and_eq_true, List.isEmpty_iff, beq_iff_eq] at hlast
    obtain ⟨⟨hpadded, rfl⟩, rfl⟩ := hlast
    simpa [fill, hpadded] using eq_encodeChars_of_lastTwo h
  -- a full group with more behind it
  | case9 a c d e rest hlast octets more hmore hgroup ih =>
    rw [decodeChars, if_neg hlast, hgroup, hmore] at h
    obtain rfl := Option.some.inj h
    rw [ih hmore]
    exact eq_encodeChars_of_group hgroup
  | case10 a c d e rest hlast hnone ih =>
    rw [decodeChars, if_neg hlast] at h
    split at h
    · exact absurd (hnone _ _ ‹_› ‹_›) id
    · cases h

/-! ## Texts -/

theorem decode?_eq_some_iff (hv : v.Faithful) {s : String} {b : Bytes} :
    v.decode? s = some b ↔ s = v.encode b := by
  rw [decode?, encode]
  constructor
  · intro h
    rw [← eq_encodeChars_of_decodeChars h, String.ofList_toList]
  · rintro rfl
    rw [String.toList_ofList, decodeChars_encodeChars hv]

theorem encode_inj (hv : v.Faithful) {b b' : Bytes} : v.encode b = v.encode b' ↔ b = b' := by
  refine ⟨fun h ↦ ?_, fun h ↦ by rw [h]⟩
  have hdecode : v.decode? (v.encode b') = some b := (decode?_eq_some_iff hv).mpr h.symm
  rw [(decode?_eq_some_iff hv).mpr rfl] at hdecode
  exact (Option.some.inj hdecode).symm

/-- A character of a text that is not padded stands for a digit. -/
theorem exists_char_of_mem_encode (hpadded : v.padded = false) {b : Bytes} {c : Char}
    (h : c ∈ (v.encode b).toList) : ∃ n < 64, c = v.char n := by
  rw [encode, String.toList_ofList] at h
  induction b using encodeChars.induct with
  | case1 x y z rest ih =>
    have hx := x.toNat_lt
    have hy := y.toNat_lt
    have hz := z.toNat_lt
    simp only [encodeChars, List.mem_cons] at h
    rcases h with rfl | rfl | rfl | rfl | h
    · exact ⟨_, by omega, rfl⟩
    · exact ⟨_, by omega, rfl⟩
    · exact ⟨_, by omega, rfl⟩
    · exact ⟨_, by omega, rfl⟩
    · exact ih h
  | case2 x y =>
    have hx := x.toNat_lt
    have hy := y.toNat_lt
    simp only [encodeChars, fill, hpadded, Bool.false_eq_true, if_false, List.mem_cons,
      List.not_mem_nil, or_false] at h
    rcases h with rfl | rfl | rfl
    · exact ⟨_, by omega, rfl⟩
    · exact ⟨_, by omega, rfl⟩
    · exact ⟨_, by omega, rfl⟩
  | case3 x =>
    have hx := x.toNat_lt
    simp only [encodeChars, fill, hpadded, Bool.false_eq_true, if_false, List.mem_cons,
      List.not_mem_nil, or_false] at h
    rcases h with rfl | rfl
    · exact ⟨_, by omega, rfl⟩
    · exact ⟨_, by omega, rfl⟩
  | case4 => cases h

end Variant

end Gatehouse.Base64
