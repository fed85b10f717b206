import Gatehouse.Bytes

/-!
# Texts from outside

Settings, headers and addresses arrive as texts that have to be trimmed, split and compared
without regard to the case of ASCII letters. The operations work on character lists, so that a
statement about a trimmed or split text is a statement about `dropWhile` and `splitOn`.

Blanks are the twenty-five characters of the Unicode property `White_Space`, not the handful that
a terminal knows.
-/

namespace Gatehouse.Text

/-- A character with the property `White_Space`. -/
def isBlank (c : Char) : Bool :=
  let n := c.toNat
  (9 ≤ n && n ≤ 13) || n == 0x20 || n == 0x85 || n == 0xA0 || n == 0x1680 ||
    (0x2000 ≤ n && n ≤ 0x200A) || n == 0x2028 || n == 0x2029 || n == 0x202F || n == 0x205F ||
    n == 0x3000

def trimLeft (cs : List Char) : List Char := cs.dropWhile isBlank

def trimRight (cs : List Char) : List Char := (cs.reverse.dropWhile isBlank).reverse

def trimChars (cs : List Char) : List Char := trimRight (trimLeft cs)

def trim (s : String) : String := String.ofList (trimChars s.toList)

/-- The characters of a list between the occurrences of a separator. -/
def pieces (sep : Char) (s : String) : List String :=
  (s.toList.splitOn sep).map String.ofList

/-- The two sides of the first occurrence of a separator. -/
def cut? (sep : Char) (s : String) : Option (String × String) :=
  let cs := s.toList
  match cs.dropWhile (· != sep) with
  | [] => none
  | _ :: rest => some (String.ofList (cs.takeWhile (· != sep)), String.ofList rest)

/-- The two sides of the last occurrence of a separator. -/
def cutLast? (sep : Char) (s : String) : Option (String × String) :=
  let cs := s.toList.reverse
  match cs.dropWhile (· != sep) with
  | [] => none
  | _ :: rest =>
    some (String.ofList rest.reverse, String.ofList (cs.takeWhile (· != sep)).reverse)

/-- ASCII capitals become small letters; every other character stays. -/
def lowerChar (c : Char) : Char :=
  if 'A'.toNat ≤ c.toNat && c.toNat ≤ 'Z'.toNat then Char.ofNat (c.toNat + 32) else c

/-- The text with its ASCII capitals made small. -/
def lower (s : String) : String := String.ofList (s.toList.map lowerChar)

def startsWith (s lead : String) : Bool := lead.toList.isPrefixOf s.toList

end Gatehouse.Text
