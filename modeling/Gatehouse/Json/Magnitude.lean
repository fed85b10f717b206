import Gatehouse.Json.Basic
import Gatehouse.Word

/-!
# How large a number is

A reader that keeps numbers as doubles turns a spelling into a significand, which fits a word of
64 bits, and a power of ten. Digits that the significand has no room for count only by their
place. The number is too large when the product, each factor rounded to 53 bits, lies beyond
every double; a power so large that a word of 32 bits does not hold it is noticed earlier, while
the spelling is still being read.
-/

namespace Gatehouse.Json

def digitValue (b : UInt8) : Nat := b.toNat - 0x30

/-- A significand and the power of ten that it is multiplied by. -/
structure Scaled where
  significand : Nat
  power : Int
  deriving DecidableEq, Repr

namespace Scaled

/-- Read the digits of a whole part. From the first one on that the significand has no room for,
each digit raises the power. -/
def readWhole (x : Scaled) : Bytes → Scaled
  | [] => x
  | d :: rest =>
    let next := x.significand * 10 + digitValue d
    if next ≤ maxWord 64 then { x with significand := next }.readWhole rest
    else { x with power := x.power + (rest.length + 1) }

/-- Read the digits of a fraction, as far as the significand has room for them. -/
def readFraction (x : Scaled) : Bytes → Scaled
  | [] => x
  | d :: rest =>
    let next := x.significand * 10 + digitValue d
    if next ≤ maxWord 64 then readFraction ⟨next, x.power - 1⟩ rest else x

/-- The number of bits in the significand of a double. -/
def precision : Nat := 53

/-- The nearest number with no more bits than a significand has; a half goes to the even
neighbour. -/
def rounded (n : Nat) : Nat :=
  let unit := wordSize (n.log2 + 1 - precision)
  let down := n / unit
  let rest := n % unit
  if unit < 2 * rest || unit == 2 * rest && down % 2 == 1 then (down + 1) * unit else down * unit

/-- The least number that no double is nearest to: half a unit above the greatest double. -/
def tooLargeFrom : Nat := wordSize 1024 - wordSize 970

/-- The greatest power of ten that a double holds. -/
def maxPower : Nat := 308

/-- Whether a number lies beyond every double. -/
def isTooLarge (x : Scaled) : Bool :=
  if x.significand = 0 || x.power < 0 then false
  else if maxPower < x.power then true
  else tooLargeFrom ≤ rounded x.significand * rounded (Nat.pow 10 x.power.toNat)

end Scaled

/-- What the digits of an exponent make: a number, or too much for a word, with the digits that
are left at that point. -/
inductive Exponent where
  | value (n : Nat)
  | tooLarge (left : Bytes)

/-- Read the digits of an exponent. -/
def Exponent.ofDigits (read : Nat) : Bytes → Exponent
  | [] => .value read
  | d :: rest =>
    let next := read * 10 + digitValue d
    if next ≤ maxSigned 32 then ofDigits next rest else .tooLarge rest

end Gatehouse.Json
