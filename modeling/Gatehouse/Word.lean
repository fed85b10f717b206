/-!
# Words

Numbers that come in or go out fit a word of so many bits, unsigned or signed in two's complement.
Inside, numbers are unbounded, and this module names what happens at the border: a largest value
where sums stop, and a wrapped value where differences start again from below.
-/

namespace Gatehouse

/-- The number of values of a word of `bits` bits. -/
def wordSize (bits : Nat) : Nat := Nat.pow 2 bits

/-- The largest unsigned value of a word of `bits` bits. -/
def maxWord (bits : Nat) : Nat := wordSize bits - 1

/-- The largest signed value of a word of `bits` bits. -/
def maxSigned (bits : Nat) : Nat := wordSize (bits - 1) - 1

/-- The signed value of a word of `bits` bits that is congruent to a number. -/
def wrapSigned (bits : Nat) (n : Int) : Int := n.bmod (wordSize bits)

/-- A number that fits is its own value. -/
theorem wrapSigned_of_fits {bits : Nat} {n : Int} (lo : -(wordSize bits : Int) ≤ 2 * n)
    (hi : 2 * n < wordSize bits) : wrapSigned bits n = n :=
  Int.bmod_eq_of_le_mul_two (by omega) (by omega)

end Gatehouse
