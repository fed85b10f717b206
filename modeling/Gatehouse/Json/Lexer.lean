import Gatehouse.Json.Basic

/-!
# Tokens of a JSON text

The octets of a text are read once, from left to right, by a machine that is either between
tokens, or in a word, or at one of three places inside a string. A word is a longest run of
letters, digits, signs and points; it has to be one of the three names or a number.
-/

namespace Gatehouse.Json

def isSpace (b : UInt8) : Bool := b == 0x20 || b == 0x09 || b == 0x0A || b == 0x0D

/-- The octets that names and numbers are made of. -/
def isWordOctet (b : UInt8) : Bool :=
  isDigit b || (0x61 ≤ b && b ≤ 0x7A) || (0x41 ≤ b && b ≤ 0x5A) || b == 0x2B || b == 0x2D ||
    b == 0x2E

def Token.ofWord? (w : Bytes) : Option Token :=
  if w = Token.octets .null then some .null
  else if w = Token.octets (.bool true) then some (.bool true)
  else if w = Token.octets (.bool false) then some (.bool false)
  else
    match h : integer? w with
    | some n => some (.int n)
    | none => if ok : isNumeral w = true then some (.real ⟨w, ok, h⟩) else none

def Token.ofMark? (b : UInt8) : Option Token :=
  [openArray, closeArray, openObject, closeObject, comma, colon].find? fun t ↦ t.octets == [b]

/-- Where the reading stands. Words and strings are kept backwards while they are read. -/
inductive Place where
  | between
  | word (read : Bytes)
  | string (read : Str)
  | escape (read : Str)
  | unicode (read : Str) (digits : Nat) (value : Nat)

/-- Read an octet that does not continue a word. -/
def Place.enter? (b : UInt8) : Option (List Token × Place) :=
  if isSpace b then some ([], .between)
  else if b = 0x22 then some ([], .string [])
  else if isWordOctet b then some ([], .word [b])
  else (Token.ofMark? b).map fun t ↦ ([t], .between)

/-- Read an octet: the tokens that it completes and the next place. -/
def Place.read? (b : UInt8) : Place → Option (List Token × Place)
  | .between => enter? b
  | .word read =>
    if isWordOctet b then some ([], .word (b :: read))
    else
      match Token.ofWord? read.reverse, enter? b with
      | some t, some (more, next) => some (t :: more, next)
      | _, _ => none
  | .string read =>
    if b = 0x22 then some ([.str read.reverse], .between)
    else if b = 0x5C then some ([], .escape read)
    else if ok : isPlain b = true then some ([], .string (.plain b ok :: read))
    else none
  | .escape read =>
    if b = 0x75 then some ([], .unicode read 0 0)
    else (Escape.ofLetter? b).map fun e ↦ ([], .string (.escape e :: read))
  | .unicode read digits value =>
    match hexValue? b with
    | none => none
    | some d =>
      if digits = 3 then some ([], .string (.unicode (UInt16.ofNat (value * 16 + d)) :: read))
      else some ([], .unicode read (digits + 1) (value * 16 + d))

/-- The tokens that are complete when the text ends. -/
def Place.finish? : Place → Option (List Token)
  | .between => some []
  | .word read => (Token.ofWord? read.reverse).map fun t ↦ [t]
  | _ => none

def Place.tokens? : Place → Bytes → Option (List Token)
  | p, [] => p.finish?
  | p, b :: rest =>
    match p.read? b with
    | none => none
    | some (done, next) => (next.tokens? rest).map (done ++ ·)

def tokens? (b : Bytes) : Option (List Token) := Place.between.tokens? b

end Gatehouse.Json
