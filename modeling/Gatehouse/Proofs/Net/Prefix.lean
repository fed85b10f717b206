import Mathlib.Data.List.OfFn
import Gatehouse.Net.Network

/-!
# Networks and leading bits

A network compares words under a mask; what is meant by it is a comparison of bit strings.
**`Network.decidesByPrefix`** says that the two are the same for every network: an address belongs
to it if it is of the network's family and begins with the same bits, as many as the network says.
What is usually said of networks follows from that alone.

## The mask

The mask is all ones, shifted to the left by the number of bits that do not count. The shift is
defined up to one less than the width, and the network of length zero asks for one more. There the
mask is zero, which is what the missing shift would have left over: `getMsbD_mask` has one formula
for all lengths. No length asks for a shift that is too short, since no network is longer than its
address.
-/

namespace Gatehouse.Net

/-! ## Bits under a mask -/

section Mask

variable {w length : Nat}

theorem getMsbD_mask (h : length ≤ w) (i : Nat) :
    (mask w length).getMsbD i = decide (i < length) := by
  rw [mask, shifted?]
  by_cases hshift : w - length < w
  · rw [if_pos hshift, Option.getD_some, BitVec.getMsbD_shiftLeft, BitVec.getMsbD_allOnes]
    exact decide_eq_decide.mpr (by omega)
  · have hzero : length = 0 := by omega
    rw [if_neg hshift, Option.getD_none, hzero]
    simp

theorem and_mask_eq_iff (h : length ≤ w) (x y : BitVec w) :
    x &&& mask w length = y &&& mask w length ↔ ∀ i < length, x.getMsbD i = y.getMsbD i := by
  constructor
  · intro heq i hi
    have hbit := congrArg (fun z ↦ BitVec.getMsbD z i) heq
    simpa only [BitVec.getMsbD_and, getMsbD_mask h, hi, decide_true, Bool.and_true] using hbit
  · intro hall
    refine BitVec.eq_of_getMsbD_eq fun i _ ↦ ?_
    rw [BitVec.getMsbD_and, BitVec.getMsbD_and, getMsbD_mask h]
    by_cases hi : i < length
    · rw [hall i hi]
    · rw [decide_eq_false hi, Bool.and_false, Bool.and_false]

/-- The bits of a word, the most significant first. -/
def bitsOf (x : BitVec w) : List Bool := List.ofFn fun i : Fin w ↦ x.getMsbD i

theorem length_bitsOf (x : BitVec w) : (bitsOf x).length = w := List.length_ofFn

theorem getElem?_bitsOf (x : BitVec w) {i : Nat} (hi : i < w) :
    (bitsOf x)[i]? = some (x.getMsbD i) := by
  rw [bitsOf, List.getElem?_ofFn, dif_pos hi]

theorem take_bitsOf_eq_iff (h : length ≤ w) (x y : BitVec w) :
    (bitsOf x).take length = (bitsOf y).take length ↔
      ∀ i < length, x.getMsbD i = y.getMsbD i := by
  have hbit : ∀ (z : BitVec w) {i : Nat}, i < length →
      ((bitsOf z).take length)[i]? = some (z.getMsbD i) := by
    intro z i hi
    rw [List.getElem?_take_of_lt hi, getElem?_bitsOf z (Nat.lt_of_lt_of_le hi h)]
  constructor
  · intro heq i hi
    have hsome := congrArg (fun l : List Bool ↦ l[i]?) heq
    simp only [hbit _ hi] at hsome
    exact Option.some.inj hsome
  · intro hall
    refine List.ext_getElem? fun i ↦ ?_
    by_cases hi : i < length
    · rw [hbit x hi, hbit y hi, hall i hi]
    · rw [List.getElem?_take_eq_none (Nat.le_of_not_lt hi),
        List.getElem?_take_eq_none (Nat.le_of_not_lt hi)]

theorem bitsOf_inj {x y : BitVec w} : bitsOf x = bitsOf y ↔ x = y := by
  constructor
  · intro heq
    refine BitVec.eq_of_getMsbD_eq fun i hi ↦ ?_
    exact (take_bitsOf_eq_iff (Nat.le_refl w) x y).mp (by rw [heq]) i hi
  · rintro rfl
    rfl

/-- Agreeing under a mask is beginning with the same bits. -/
theorem agree_iff (h : length ≤ w) (x y : BitVec w) :
    agree length x y = true ↔ (bitsOf x).take length = (bitsOf y).take length := by
  rw [agree, beq_iff_eq, and_mask_eq_iff h, take_bitsOf_eq_iff h]

end Mask

/-! ## Addresses as bit strings -/

/-- The two families of addresses. -/
inductive Family where
  | v4
  | v6
  deriving DecidableEq, Repr

/-- The number of bits of the addresses of a family. -/
def Family.width : Family → Nat
  | .v4 => 32
  | .v6 => 128

namespace Address

/-- The family of an address. -/
def family : Address → Family
  | .v4 _ => .v4
  | .v6 _ => .v6

theorem width_family (a : Address) : a.family.width = a.width := by
  cases a with
  | v4 x => rfl
  | v6 x => rfl

/-- The bits of an address, the most significant first. -/
def bits : Address → List Bool
  | .v4 x => bitsOf x
  | .v6 x => bitsOf x

/-- Two addresses are of one family and begin with the same bits, `length` of them. -/
structure Agrees (length : Nat) (a b : Address) : Prop where
  family_eq : a.family = b.family
  take_eq : a.bits.take length = b.bits.take length

variable {a b c : Address} {length : Nat}

theorem length_bits (a : Address) : a.bits.length = a.width := by
  cases a with
  | v4 x => exact length_bitsOf x
  | v6 x => exact length_bitsOf x

theorem eq_of_bits_eq (hfamily : a.family = b.family) (hbits : a.bits = b.bits) : a = b := by
  cases a with
  | v4 x =>
    cases b with
    | v4 y => rw [bitsOf_inj.mp hbits]
    | v6 y => cases hfamily
  | v6 x =>
    cases b with
    | v4 y => cases hfamily
    | v6 y => rw [bitsOf_inj.mp hbits]

namespace Agrees

theorem symm (h : Agrees length a b) : Agrees length b a :=
  ⟨h.family_eq.symm, h.take_eq.symm⟩

theorem trans (h : Agrees length a b) (h' : Agrees length b c) : Agrees length a c :=
  ⟨h.family_eq.trans h'.family_eq, h.take_eq.trans h'.take_eq⟩

/-- Who agrees in more bits agrees in fewer. -/
theorem of_le {shorter : Nat} (hle : shorter ≤ length) (h : Agrees length a b) :
    Agrees shorter a b := by
  refine ⟨h.family_eq, ?_⟩
  have htake : ∀ l : List Bool, l.take shorter = (l.take length).take shorter := by
    intro l
    rw [List.take_take, Nat.min_eq_left hle]
  rw [htake a.bits, h.take_eq, ← htake]

end Agrees

theorem agrees_zero_iff : Agrees 0 a b ↔ a.family = b.family :=
  ⟨Agrees.family_eq, fun h ↦ ⟨h, rfl⟩⟩

theorem agrees_width_iff : Agrees b.width a b ↔ a = b := by
  constructor
  · intro h
    have hwidth : a.width = b.width := by
      rw [← a.width_family, h.family_eq, b.width_family]
    have htake : ∀ c : Address, c.bits.take c.width = c.bits := by
      intro c
      rw [← c.length_bits, List.take_length]
    refine eq_of_bits_eq h.family_eq ?_
    calc a.bits = a.bits.take b.width := by rw [← hwidth, htake]
      _ = b.bits.take b.width := h.take_eq
      _ = b.bits := htake b
  · rintro rfl
    exact ⟨rfl, rfl⟩

end Address

/-! ## Networks -/

namespace Network

/-- An address is contained if it agrees with the network in the bits that count. -/
theorem contains_iff_agrees (n : Network) (a : Address) :
    n.contains a = true ↔ a.Agrees n.length n.address := by
  obtain ⟨address, length, hlength⟩ := n
  cases a with
  | v4 x =>
    cases address with
    | v4 y => exact (agree_iff hlength x y).trans ⟨fun h ↦ ⟨rfl, h⟩, Address.Agrees.take_eq⟩
    | v6 y => exact ⟨Bool.noConfusion, fun h ↦ nomatch h.family_eq⟩
  | v6 x =>
    cases address with
    | v4 y => exact ⟨Bool.noConfusion, fun h ↦ nomatch h.family_eq⟩
    | v6 y => exact (agree_iff hlength x y).trans ⟨fun h ↦ ⟨rfl, h⟩, Address.Agrees.take_eq⟩

/-- What it means that only leading bits count. -/
structure DecidesByPrefix (n : Network) : Prop where
  /-- The network holds the addresses that begin as it does, and no others. -/
  contains_iff (a : Address) : n.contains a = true ↔ a.Agrees n.length n.address
  /-- Where no bit counts, these are all addresses of the family. -/
  of_length_zero (h : n.length = 0) (a : Address) :
    n.contains a = true ↔ a.family = n.address.family
  /-- Where all bits count, there is only the network's own address. -/
  of_length_width (h : n.length = n.address.width) (a : Address) :
    n.contains a = true ↔ a = n.address
  /-- The bits that do not count could be any others. -/
  of_agrees (m : Network) (hlength : m.length = n.length)
    (hagrees : m.address.Agrees n.length n.address) (a : Address) : m.contains a = n.contains a
  /-- The fewer bits count, the more addresses there are. -/
  of_length_le (m : Network) (haddress : m.address = n.address) (hlength : m.length ≤ n.length)
    (a : Address) (ha : n.contains a = true) : m.contains a = true

/-- **Only leading bits count**, in every network. -/
theorem decidesByPrefix (n : Network) : n.DecidesByPrefix where
  contains_iff := n.contains_iff_agrees
  of_length_zero h a := by
    rw [contains_iff_agrees, h]
    exact Address.agrees_zero_iff
  of_length_width h a := by
    rw [contains_iff_agrees, h]
    exact Address.agrees_width_iff
  of_agrees m hlength hagrees a := by
    rw [Bool.eq_iff_iff, contains_iff_agrees, contains_iff_agrees, hlength]
    exact ⟨fun h ↦ h.trans hagrees, fun h ↦ h.trans hagrees.symm⟩
  of_length_le m haddress hlength a ha := by
    rw [contains_iff_agrees] at ha ⊢
    rw [haddress]
    exact ha.of_le hlength

/-- The extremes, read from texts: everything of one family and nothing of the other; a single
address, whose text shows all of its bits. -/
example :
    (parse? "0.0.0.0/0").map (fun n ↦ [n.contains (.v4 0x08080808), n.contains (.v6 0x08080808)]) =
        some [true, false] ∧
      (parse? "::1").map (fun n ↦ [n.contains (.v6 1), n.contains (.v6 0)]) =
        some [true, false] := by
  decide +kernel

end Network

end Gatehouse.Net
