import Gatehouse.Json.Record
import Gatehouse.Proofs.Json.RoundTrip
import Mathlib.Tactic.SplitIfs

/-!
# Records are read back

A text is written octet by octet, and each octet is either plain or escaped in a way that means it
again; so a text is read back whatever it holds, `text?_ofText`. A record is an object whose fields
have texts for names, and reading it keeps the fields that are asked for, in their order:
`record?_object`.
-/

namespace Gatehouse

/-! ## ASCII -/

theorem utf8_ofList (cs : List Char) :
    utf8 (String.ofList cs) = cs.flatMap String.utf8EncodeChar := by
  simp [utf8, String.toUTF8, List.utf8Encode]

/-- Characters of ASCII are written as one octet each. -/
theorem utf8_ofList_of_ascii {cs : List Char} (h : ∀ c ∈ cs, c.toNat < 128) :
    utf8 (String.ofList cs) = cs.map fun c ↦ UInt8.ofNat c.toNat := by
  have hone : ∀ c ∈ cs, String.utf8EncodeChar c = [UInt8.ofNat c.toNat] := fun c hc ↦
    if_pos (Nat.le_of_lt_succ (h c hc))
  rw [utf8_ofList, List.map_eq_flatMap, List.flatMap_def, List.map_congr_left hone,
    ← List.flatMap_def]

theorem toNat_charOfNat_of_ascii {n : Nat} (h : n < 128) : (Char.ofNat n).toNat = n := by
  have hvalid : n.isValidChar := .inl (by omega)
  rw [Char.ofNat, dif_pos hvalid]
  rfl

namespace Json

theorem charOctets_of_ascii {n : Nat} (h : n < 128) : charOctets n = [UInt8.ofNat n] := by
  have hn := toNat_charOfNat_of_ascii h
  have hascii : ∀ c ∈ [Char.ofNat n], c.toNat < 128 := fun c hc ↦ by
    rw [List.mem_singleton.mp hc, hn]
    exact h
  rw [charOctets, String.singleton_eq_ofList, utf8_ofList_of_ascii hascii, List.map_singleton, hn]

/-- The numeral of a natural number is its octets as a JSON text. -/
theorem utf8_repr (n : Nat) : utf8 n.repr = integerOctets n := by
  have hascii : ∀ c ∈ Nat.toDigits 10 n, c.toNat < 128 := fun c hc ↦
    Nat.lt_of_le_of_lt (toNat_digitOctet (isDigit_of_mem hc)).2.2 (by decide)
  rw [Nat.repr_eq_ofList_toDigits, utf8_ofList_of_ascii hascii, integerOctets_ofNat]
  rfl

/-! ## Texts -/

namespace Str

/-- An escaped character of ASCII means its octet, whatever comes behind it. -/
theorem octets?_cons_unicode {n : UInt16} (h : n.toNat < 128) (rest : Str) :
    Str.octets? (.unicode n :: rest) = (Str.octets? rest).map (UInt8.ofNat n.toNat :: ·) := by
  have hlead : isLeading n = false := by
    simp [isLeading, UInt16.le_iff_toNat_le]
    omega
  have htrail : isTrailing n = false := by
    simp [isTrailing, UInt16.le_iff_toNat_le]
    omega
  match rest with
  | [] | .plain _ _ :: _ | .escape _ :: _ | .unicode _ :: _ =>
    simp [Str.octets?, hlead, htrail, charOctets_of_ascii h]

/-- The unit that writes an octet means it. -/
theorem octets?_cons_ofOctet (b : UInt8) (rest : Str) :
    Str.octets? (StrUnit.ofOctet b :: rest) = (Str.octets? rest).map (b :: ·) := by
  rw [StrUnit.ofOctet]
  split_ifs with hplain h22 h5C h08 h0C h0A h0D h09
  · rw [octets?]
  · rw [octets?, h22, Escape.octet]
  · rw [octets?, h5C, Escape.octet]
  · rw [octets?, h08, Escape.octet]
  · rw [octets?, h0C, Escape.octet]
  · rw [octets?, h0A, Escape.octet]
  · rw [octets?, h0D, Escape.octet]
  · rw [octets?, h09, Escape.octet]
  · -- what is left is a control character, so its number is below 32
    have hcontrol : b.toNat < 32 := by
      have hlow : ¬ 0x20 ≤ b := fun hge ↦ hplain (by simp [isPlain, hge, h22, h5C])
      exact Nat.lt_of_not_le fun hge ↦ hlow (UInt8.le_iff_toNat_le.mpr hge)
    have hnat : b.toUInt16.toNat = b.toNat := UInt8.toNat_toUInt16 b
    rw [octets?_cons_unicode (by omega), hnat, UInt8.ofNat_toNat]

theorem octets?_map_ofOctet (b : Bytes) : Str.octets? (b.map StrUnit.ofOctet) = some b := by
  induction b with
  | nil => rfl
  | cons x b ih => rw [List.map_cons, octets?_cons_ofOctet, ih, Option.map_some]

theorem text?_ofText (s : String) : (Str.ofText s).text? = some s := by
  rw [text?, ofText, octets?_map_ofOctet, Option.bind_some, ofUtf8?_utf8]

end Str

@[simp]
theorem text?_ofText (s : String) : (ofText s).text? = some s := Str.text?_ofText s

@[simp]
theorem optional?_none {α : Type} (value? : Json → Option α) : optional? value? none = some none :=
  rfl

@[simp]
theorem optional?_ofText (s : String) : optional? text? (some (ofText s)) = some (some s) := by
  rw [optional?, text?_ofText, Option.map_some]
  exact fun h ↦ nomatch h

/-! ## Records -/

theorem namedFields?_ofText (fields : List (String × Json)) :
    namedFields? (fields.map fun f ↦ (Str.ofText f.1, f.2)) = some fields := by
  induction fields with
  | nil => rfl
  | cons f fields ih => simp only [List.map_cons, namedFields?, Str.text?_ofText, ih]

/-- Of an object, a record takes the fields that it knows. -/
theorem record?_object (names : List String) (fields : List (String × Json)) :
    (object fields).record? names =
      let known := fields.filter fun f ↦ names.contains f.1
      if (known.map Prod.fst).Nodup then some known else none := by
  rw [object, record?, namedFields?_ofText, Option.bind_some]

/-- Items that are each read back are read back together. -/
theorem list?_map {α : Type} {item? : Json → Option α} {item : α → Json}
    (h : ∀ x, item? (item x) = some x) (xs : List α) :
    (Json.arr (xs.map item)).list? item? = some xs := by
  rw [list?]
  induction xs with
  | nil => rfl
  | cons x xs ih => rw [List.map_cons, List.mapM_cons, h, ih]; rfl

theorem word16?_int {n : Nat} (h : n ≤ maxWord 16) : (Json.int n).word16? = some n := by
  rw [word16?, intIn?, if_pos ⟨Int.natCast_nonneg n, Int.ofNat_le.mpr h⟩, Option.map_some,
    Int.toNat_natCast]

theorem int64?_int {n : Int} (h : -(maxSigned 64 : Int) - 1 ≤ n ∧ n ≤ maxSigned 64) :
    (Json.int n).int64? = some n := by
  rw [int64?, intIn?, if_pos h]

end Json

end Gatehouse
