import Gatehouse.Bytes

/-!
# Random identifiers

An identifier is 122 random bits in the customary form of thirty-two hexadecimal digits in five
groups; four further bits say that it is random and two say which form it has.
-/

namespace Gatehouse.Uuid

/-- Mark the octets of an identifier as random. -/
def marked (b : Bytes) : Bytes :=
  (b.zipIdx).map fun (x, i) ↦
    if i = 6 then (x &&& 0x0F) ||| 0x40 else if i = 8 then (x &&& 0x3F) ||| 0x80 else x

/-- The text of the identifier that is made from the lowest 128 bits of a number. -/
def ofRandom (n : Nat) : String :=
  let b := marked (bigEndian 16 n)
  let group (start length : Nat) : String := hex ((b.drop start).take length)
  "-".intercalate [group 0 4, group 4 2, group 6 2, group 8 2, group 10 6]

end Gatehouse.Uuid
