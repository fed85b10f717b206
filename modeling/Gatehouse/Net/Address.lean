import Gatehouse.Text
import Gatehouse.Text.Decimal

/-!
# Internet addresses

An address is a bit string of 32 or 128 bits, so that "the first bits agree" is a statement about
bits. Its texts are the usual ones: four decimal parts without leading zeros, or groups of up to
four hexadecimal digits of which one run of zeros may be left out, and whose last two groups may
be written as a 32-bit address.

The written form is canonical: small letters, and the first longest run of at least two zero
groups left out.
-/

namespace Gatehouse.Net

/-- An address of one of the two families. -/
inductive Address where
  | v4 (bits : BitVec 32)
  | v6 (bits : BitVec 128)
  deriving DecidableEq, Repr

def Address.width : Address → Nat
  | .v4 _ => 32
  | .v6 _ => 128

/-! ## Reading -/

/-- A decimal part: up to three digits without leading zeros, at most 255. -/
def part? (cs : List Char) : Option Nat :=
  match cs with
  | ['0'] => some 0
  | '0' :: _ => none
  | '+' :: _ => none
  | _ =>
    match Text.readNumeral 255 cs with
    | .ok n => some n
    | .error _ => none

/-- Digits of the number `base`, the first one the most significant. -/
def joined (base : Nat) (digits : List Nat) : Nat := digits.foldl (fun n d ↦ n * base + d) 0

/-- The number of a 32-bit address. -/
def v4Number? (cs : List Char) : Option Nat :=
  match (cs.splitOn '.').mapM part? with
  | some [a, b, c, d] => some (joined 256 [a, b, c, d])
  | _ => none

def hexValue? (c : Char) : Option Nat :=
  if '0' ≤ c ∧ c ≤ '9' then some (c.toNat - 48)
  else if 'a' ≤ c ∧ c ≤ 'f' then some (c.toNat - 87)
  else if 'A' ≤ c ∧ c ≤ 'F' then some (c.toNat - 55)
  else none

/-- A group: one to four hexadecimal digits. -/
def group? (cs : List Char) : Option Nat :=
  if cs.length = 0 ∨ 4 < cs.length then none
  else (cs.mapM hexValue?).map (joined 16)

/-- Groups from their texts. The last text may be a 32-bit address, which gives two groups. -/
def groups? : List (List Char) → Option (List Nat)
  | [] => some []
  | [last] =>
    match v4Number? last with
    | some n => some [n / 65536, n % 65536]
    | none => (group? last).map fun g ↦ [g]
  | cs :: rest =>
    match group? cs, groups? rest with
    | some g, some more => some (g :: more)
    | _, _ => none

/-- Groups separated by colons; no text gives no groups. -/
def colonGroups? (cs : List Char) : Option (List Nat) :=
  if cs.isEmpty then some [] else groups? (cs.splitOn ':')

/-- Groups separated by colons, none of them written as a 32-bit address. -/
def plainGroups? (cs : List Char) : Option (List Nat) :=
  if cs.isEmpty then some [] else (cs.splitOn ':').mapM group?

/-- The texts before and after the first double colon. -/
def cutAtGap? : List Char → Option (List Char × List Char)
  | ':' :: ':' :: rest => some ([], rest)
  | c :: rest => (cutAtGap? rest).map fun (before, after) ↦ (c :: before, after)
  | [] => none

/-- The eight groups of a 128-bit address. A gap stands for at least one group. -/
def v6Groups? (cs : List Char) : Option (List Nat) :=
  match cutAtGap? cs with
  | none => (colonGroups? cs).filter fun gs ↦ gs.length == 8
  | some (before, after) =>
    match plainGroups? before, colonGroups? after with
    | some head, some tail =>
      if head.length + tail.length ≤ 7 then
        some (head ++ List.replicate (8 - head.length - tail.length) 0 ++ tail)
      else none
    | _, _ => none

def Address.ofChars? (cs : List Char) : Option Address :=
  match v4Number? cs with
  | some n => some (.v4 (BitVec.ofNat 32 n))
  | none => (v6Groups? cs).map fun gs ↦ .v6 (BitVec.ofNat 128 (joined 65536 gs))

def Address.parse? (s : String) : Option Address := ofChars? s.toList

/-! ## Writing -/

/-- The `n` low digits of a number, the most significant first. -/
def digitsOf (base : Nat) : Nat → Nat → List Nat
  | 0, _ => []
  | n + 1, x => digitsOf base n (x / base) ++ [x % base]

def v4Text (n : Nat) : String := ".".intercalate ((digitsOf 256 4 n).map Nat.repr)

/-- A group in small hexadecimal digits. -/
def groupText (g : Nat) : String := String.ofList (Nat.toDigits 16 g)

def groupsText (gs : List Nat) : String := ":".intercalate (gs.map groupText)

/-- The number of zero groups at the start. -/
def leadingZeros (gs : List Nat) : Nat := (gs.takeWhile (· == 0)).length

/-- The length of the longest run of zeros in a list of groups. -/
def longestZeros : List Nat → Nat
  | [] => 0
  | g :: rest => max (leadingZeros (g :: rest)) (longestZeros rest)

/-- The groups before and after the first run of zeros that has the given length. -/
def cutZeros (length : Nat) : List Nat → List Nat × List Nat
  | [] => ([], [])
  | g :: rest =>
    if leadingZeros (g :: rest) = length then ([], (g :: rest).drop length)
    else
      let (before, after) := cutZeros length rest
      (g :: before, after)

def v6Text (gs : List Nat) : String :=
  match gs with
  | [0, 0, 0, 0, 0, 0xffff, high, low] => "::ffff:" ++ v4Text (high * 65536 + low)
  | _ =>
    let length := longestZeros gs
    if length < 2 then groupsText gs
    else
      let (before, after) := cutZeros length gs
      groupsText before ++ "::" ++ groupsText after

/-- The canonical text of an address. -/
def Address.text : Address → String
  | .v4 bits => v4Text bits.toNat
  | .v6 bits => v6Text (digitsOf 65536 8 bits.toNat)

/-! ## Socket addresses

Only the address of a peer matters here; its port, and the zone of a 128-bit address, are checked
and forgotten. -/

/-- A decimal number of at most the given size; leading zeros are allowed, a sign is not. -/
def isDecimalUpTo (max : Nat) (cs : List Char) : Bool :=
  !cs.isEmpty && cs.all (fun c ↦ '0' ≤ c && c ≤ '9') && Nat.ofDigitChars 10 cs 0 ≤ max

/-- The address without the zone that may follow it. -/
def withoutZone? (cs : List Char) : Option (List Char) :=
  let zone := cs.dropWhile (· != '%')
  if zone.isEmpty || isDecimalUpTo (maxWord 32) (zone.drop 1) then
    some (cs.takeWhile (· != '%'))
  else none

def peer? (s : String) : Option Address :=
  match s.toList with
  | '[' :: rest =>
    let inside := rest.takeWhile (· != ']')
    match rest.dropWhile (· != ']') with
    | ']' :: ':' :: port =>
      if isDecimalUpTo 65535 port then
        ((withoutZone? inside).bind v6Groups?).map fun gs ↦
          .v6 (BitVec.ofNat 128 (joined 65536 gs))
      else none
    | _ => none
  | cs =>
    match cs.dropWhile (· != ':') with
    | ':' :: port =>
      if isDecimalUpTo 65535 port then
        (v4Number? (cs.takeWhile (· != ':'))).map fun n ↦ .v4 (BitVec.ofNat 32 n)
      else none
    | _ => none

end Gatehouse.Net
