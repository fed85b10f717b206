/-!
# Octet strings and their texts

Keys, bodies and header values travel as octets. This module fixes the octet string as a plain
list, ties it to text through UTF-8, and gives the lower-case hexadecimal form in which digests
are written.

Texts are embedded by `utf8`, which is injective and turns concatenation into concatenation; that
is all the key constructions elsewhere rely on. In the other direction `ofUtf8?` accepts exactly
the images.
-/

namespace Gatehouse

abbrev Bytes := List UInt8

/-! ## UTF-8 -/

/-- The UTF-8 form of a text. -/
def utf8 (s : String) : Bytes := s.toUTF8.data.toList

/-- The text whose UTF-8 form is given, if there is one. -/
def ofUtf8? (b : Bytes) : Option String := String.fromUTF8? ⟨b.toArray⟩

theorem utf8_append (s t : String) : utf8 (s ++ t) = utf8 s ++ utf8 t := by
  simp [utf8, String.toUTF8]

theorem utf8_inj {s t : String} : utf8 s = utf8 t ↔ s = t := by
  simp only [utf8, String.toUTF8]
  constructor
  · intro h
    exact String.toByteArray_inj.mp (ByteArray.ext (Array.toList_inj.mp h))
  · rintro rfl; rfl

theorem ofUtf8?_utf8 (s : String) : ofUtf8? (utf8 s) = some s := by
  have h : (⟨(utf8 s).toArray⟩ : ByteArray) = s.toByteArray := by
    simp [utf8, String.toUTF8]
  rw [ofUtf8?, h, String.fromUTF8?, dif_pos s.isValidUTF8]
  exact congrArg some (String.toByteArray_inj.mp rfl)

theorem utf8_of_ofUtf8? {b : Bytes} {s : String} (h : ofUtf8? b = some s) : utf8 s = b := by
  rw [ofUtf8?, String.fromUTF8?] at h
  split at h
  · cases h; rfl
  · cases h

/-! ## Hexadecimal -/

/-- The lower-case digit of a value below sixteen. -/
def hexDigit (n : Nat) : Char :=
  if n < 10 then Char.ofNat (48 + n) else Char.ofNat (87 + n)

/-- The value of a digit, small or capital. -/
def hexValue? (b : UInt8) : Option Nat :=
  if 0x30 ≤ b && b ≤ 0x39 then some (b.toNat - 0x30)
  else if 0x61 ≤ b && b ≤ 0x66 then some (b.toNat - 0x57)
  else if 0x41 ≤ b && b ≤ 0x46 then some (b.toNat - 0x37)
  else none

/-- Two lower-case digits for every octet, the high half first. -/
def hex (b : Bytes) : String :=
  String.ofList (b.flatMap fun x ↦ [hexDigit (x.toNat / 16), hexDigit (x.toNat % 16)])

/-! ## Numbers -/

/-- The `n` low octets of a number, the high one first. -/
def bigEndian : Nat → Nat → Bytes
  | 0, _ => []
  | n + 1, x => bigEndian n (x / 256) ++ [UInt8.ofNat x]

end Gatehouse
