import Gatehouse.Bytes

/-!
# Base 64

Three octets are written as four characters of six bits each. Two variants are in use: the
standard alphabet with padding, for the bodies of stored responses, and the alphabet that is safe
in addresses, without padding, for the parts of a token.

Only one text is accepted for every octet string. A group of two or three characters has two or
four bits to spare, and decoding refuses a text that sets them; otherwise a token could be
altered without altering what it says.
-/

namespace Gatehouse.Base64

/-- A variant: the characters of the two last digits, and whether `=` fills the last group. -/
structure Variant where
  digit62 : Char
  digit63 : Char
  padded : Bool
  deriving DecidableEq, Repr

/-- The variant with `+`, `/` and padding. -/
def standard : Variant := ⟨'+', '/', true⟩

/-- The variant with `-`, `_` and no padding. -/
def urlSafe : Variant := ⟨'-', '_', false⟩

namespace Variant

/-- The character of a digit below sixty-four. -/
def char (v : Variant) (n : Nat) : Char :=
  if n < 26 then Char.ofNat (65 + n)
  else if n < 52 then Char.ofNat (71 + n)
  else if n < 62 then Char.ofNat (n - 4)
  else if n = 62 then v.digit62
  else v.digit63

/-- The digit that a character stands for. -/
def value? (v : Variant) (c : Char) : Option Nat :=
  let n := c.toNat
  if 65 ≤ n ∧ n ≤ 90 then some (n - 65)
  else if 97 ≤ n ∧ n ≤ 122 then some (n - 71)
  else if 48 ≤ n ∧ n ≤ 57 then some (n + 4)
  else if c = v.digit62 then some 62
  else if c = v.digit63 then some 63
  else none

/-- The characters that fill up a group that is `n` characters short. -/
def fill (v : Variant) (n : Nat) : List Char :=
  if v.padded then List.replicate n '=' else []

/-! ## Encoding -/

def encodeChars (v : Variant) : Bytes → List Char
  | x :: y :: z :: rest =>
    v.char (x.toNat / 4) :: v.char (x.toNat % 4 * 16 + y.toNat / 16) ::
      v.char (y.toNat % 16 * 4 + z.toNat / 64) :: v.char (z.toNat % 64) :: v.encodeChars rest
  | [x, y] =>
    v.char (x.toNat / 4) :: v.char (x.toNat % 4 * 16 + y.toNat / 16) ::
      v.char (y.toNat % 16 * 4) :: v.fill 1
  | [x] => v.char (x.toNat / 4) :: v.char (x.toNat % 4 * 16) :: v.fill 2
  | [] => []

def encode (v : Variant) (b : Bytes) : String := String.ofList (v.encodeChars b)

/-! ## Decoding -/

/-- The octet of a last group of two characters. -/
def lastOne (v : Variant) (a b : Char) : Option Bytes :=
  match v.value? a, v.value? b with
  | some a, some b => if b % 16 = 0 then some [UInt8.ofNat (a * 4 + b / 16)] else none
  | _, _ => none

/-- The octets of a last group of three characters. -/
def lastTwo (v : Variant) (a b c : Char) : Option Bytes :=
  match v.value? a, v.value? b, v.value? c with
  | some a, some b, some c =>
    if c % 4 = 0 then
      some [UInt8.ofNat (a * 4 + b / 16), UInt8.ofNat (b % 16 * 16 + c / 4)]
    else none
  | _, _, _ => none

/-- The octets of a full group. -/
def group (v : Variant) (a b c d : Char) : Option Bytes :=
  match v.value? a, v.value? b, v.value? c, v.value? d with
  | some a, some b, some c, some d =>
    some [UInt8.ofNat (a * 4 + b / 16), UInt8.ofNat (b % 16 * 16 + c / 4),
      UInt8.ofNat (c % 4 * 64 + d)]
  | _, _, _, _ => none

def decodeChars (v : Variant) : List Char → Option Bytes
  | [] => some []
  | [_] => none
  | [a, b] => if v.padded then none else v.lastOne a b
  | [a, b, c] => if v.padded then none else v.lastTwo a b c
  | a :: b :: c :: d :: rest =>
    if v.padded && rest.isEmpty && d == '=' then
      if c = '=' then v.lastOne a b else v.lastTwo a b c
    else
      match v.group a b c d, v.decodeChars rest with
      | some octets, some more => some (octets ++ more)
      | _, _ => none

def decode? (v : Variant) (s : String) : Option Bytes := v.decodeChars s.toList

end Variant

end Gatehouse.Base64
