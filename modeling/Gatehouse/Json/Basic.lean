import Gatehouse.Bytes

/-!
# JSON values

A value is kept as close to its text as decoding needs. A string is a list of units, each of them
one octet or one escape: whether the units spell a text is asked only where a text is wanted, so a
field that nobody reads may hold half of a surrogate pair. A number is either an integer or it is
not, and then only its spelling is kept: nothing here computes with fractions.

Every value has one compact text, given by its tokens.
-/

namespace Gatehouse

namespace Json

/-- The octets that stand for themselves between quotes. -/
def isPlain (b : UInt8) : Bool := 0x20 ≤ b && b != 0x22 && b != 0x5C

inductive Escape where
  | quote
  | backslash
  | slash
  | backspace
  | formFeed
  | newline
  | carriageReturn
  | tab
  deriving DecidableEq, Repr

/-- The octet that is written behind the backslash. -/
def Escape.letter : Escape → UInt8
  | .quote => 0x22
  | .backslash => 0x5C
  | .slash => 0x2F
  | .backspace => 0x62
  | .formFeed => 0x66
  | .newline => 0x6E
  | .carriageReturn => 0x72
  | .tab => 0x74

def Escape.octet : Escape → UInt8
  | .quote => 0x22
  | .backslash => 0x5C
  | .slash => 0x2F
  | .backspace => 0x08
  | .formFeed => 0x0C
  | .newline => 0x0A
  | .carriageReturn => 0x0D
  | .tab => 0x09

def Escape.ofLetter? (b : UInt8) : Option Escape :=
  [quote, backslash, slash, backspace, formFeed, newline, carriageReturn, tab].find?
    fun e ↦ e.letter == b

/-- A part of a string that cannot be divided. -/
inductive StrUnit where
  | plain (b : UInt8) (ok : isPlain b = true)
  | escape (e : Escape)
  | unicode (n : UInt16)
  deriving DecidableEq, Repr

/-- A string, as it is spelled. -/
abbrev Str := List StrUnit

/-! ## Strings and texts -/

/-- The unit that writes an octet: control characters, quotes and backslashes are escaped. -/
def StrUnit.ofOctet (b : UInt8) : StrUnit :=
  if ok : isPlain b = true then .plain b ok
  else if b = 0x22 then .escape .quote
  else if b = 0x5C then .escape .backslash
  else if b = 0x08 then .escape .backspace
  else if b = 0x0C then .escape .formFeed
  else if b = 0x0A then .escape .newline
  else if b = 0x0D then .escape .carriageReturn
  else if b = 0x09 then .escape .tab
  else .unicode b.toUInt16

def Str.ofText (s : String) : Str := (utf8 s).map StrUnit.ofOctet

/-- The first half of a surrogate pair. -/
def isLeading (n : UInt16) : Bool := 0xD800 ≤ n && n ≤ 0xDBFF

/-- The second half of a surrogate pair. -/
def isTrailing (n : UInt16) : Bool := 0xDC00 ≤ n && n ≤ 0xDFFF

/-- The octets of the character with the given number. -/
def charOctets (n : Nat) : Bytes := utf8 (String.singleton (Char.ofNat n))

/-- The number of the character that a surrogate pair means. -/
def pairNumber (lead trail : UInt16) : Nat :=
  0x10000 + (lead.toNat - 0xD800) * 0x400 + (trail.toNat - 0xDC00)

/-- The octets that a string means; a half of a surrogate pair means none. -/
def Str.octets? : Str → Option Bytes
  | [] => some []
  | .plain b _ :: rest => (Str.octets? rest).map (b :: ·)
  | .escape e :: rest => (Str.octets? rest).map (e.octet :: ·)
  | .unicode lead :: .unicode trail :: rest =>
    if isLeading lead then
      if isTrailing trail then
        (Str.octets? rest).map (charOctets (pairNumber lead trail) ++ ·)
      else none
    else if isTrailing lead then none
    else (Str.octets? (.unicode trail :: rest)).map (charOctets lead.toNat ++ ·)
  | .unicode n :: rest =>
    if isLeading n || isTrailing n then none
    else (Str.octets? rest).map (charOctets n.toNat ++ ·)

def Str.text? (s : Str) : Option String := (Str.octets? s).bind ofUtf8?

/-! ## Numbers -/

def isDigit (b : UInt8) : Bool := 0x30 ≤ b && b ≤ 0x39

/-- The digits in front and what follows them. -/
def spanDigits (b : Bytes) : Bytes × Bytes := (b.takeWhile isDigit, b.dropWhile isDigit)

/-- A whole part: a zero alone, or digits that do not begin with zero. -/
def isWhole (digits : Bytes) : Bool :=
  match digits with
  | [] => false
  | [_] => true
  | d :: _ => d != 0x30

/-- Nothing, or an exponent. -/
def isExponent : Bytes → Bool
  | [] => true
  | e :: rest =>
    (e == 0x65 || e == 0x45) &&
      let digits := match rest with
        | s :: more => if s == 0x2B || s == 0x2D then more else rest
        | [] => []
      !digits.isEmpty && digits.all isDigit

/-- Nothing, or a fraction, an exponent, or both. -/
def isTail : Bytes → Bool
  | 0x2E :: rest =>
    let (digits, more) := spanDigits rest
    !digits.isEmpty && isExponent more
  | rest => isExponent rest

/-- The number without its sign. -/
def unsigned (b : Bytes) : Bytes :=
  match b with
  | 0x2D :: rest => rest
  | _ => b

/-- The spelling of a number. -/
def isNumeral (b : Bytes) : Bool :=
  let (digits, more) := spanDigits (unsigned b)
  isWhole digits && isTail more

/-- The integer that a spelling without fraction and exponent means. Zero has no sign. -/
def integer? (b : Bytes) : Option Int :=
  let digits := unsigned b
  if isWhole digits && digits.all isDigit then
    let n := Nat.ofDigitChars 10 (digits.map fun d ↦ Char.ofNat d.toNat) 0
    if digits = b then some n
    else if n = 0 then none
    else some (-n)
  else none

/-- A number that is not written as an integer. -/
structure Numeral where
  spelling : Bytes
  ok : isNumeral spelling = true
  fractional : integer? spelling = none
  deriving DecidableEq, Repr

def integerOctets (n : Int) : Bytes := n.repr.toList.map fun c ↦ UInt8.ofNat c.toNat

end Json

/-! ## Values -/

inductive Json where
  | null
  | bool (b : Bool)
  | int (n : Int)
  | real (x : Json.Numeral)
  | str (s : Json.Str)
  | arr (items : List Json)
  | obj (fields : List (Json.Str × Json))

namespace Json

/-- The parts of a JSON text. -/
inductive Token where
  | openArray
  | closeArray
  | openObject
  | closeObject
  | comma
  | colon
  | null
  | bool (b : Bool)
  | int (n : Int)
  | real (x : Numeral)
  | str (s : Str)
  deriving DecidableEq, Repr

def StrUnit.octets : StrUnit → Bytes
  | .plain b _ => [b]
  | .escape e => [0x5C, e.letter]
  | .unicode n =>
    let digit (value : Nat) : UInt8 := UInt8.ofNat (hexDigit (n.toNat / value % 16)).toNat
    [0x5C, 0x75, digit 4096, digit 256, digit 16, digit 1]

def Token.octets : Token → Bytes
  | .openArray => [0x5B]
  | .closeArray => [0x5D]
  | .openObject => [0x7B]
  | .closeObject => [0x7D]
  | .comma => [0x2C]
  | .colon => [0x3A]
  | .null => [0x6E, 0x75, 0x6C, 0x6C]
  | .bool true => [0x74, 0x72, 0x75, 0x65]
  | .bool false => [0x66, 0x61, 0x6C, 0x73, 0x65]
  | .int n => integerOctets n
  | .real x => x.spelling
  | .str s => 0x22 :: s.flatMap StrUnit.octets ++ [0x22]

mutual

def tokens : Json → List Token
  | .null => [.null]
  | .bool b => [.bool b]
  | .int n => [.int n]
  | .real x => [.real x]
  | .str s => [.str s]
  | .arr items => .openArray :: itemTokens items ++ [.closeArray]
  | .obj fields => .openObject :: fieldTokens fields ++ [.closeObject]

/-- The tokens of the items of an array, with commas between them. -/
def itemTokens : List Json → List Token
  | [] => []
  | [v] => tokens v
  | v :: rest => tokens v ++ .comma :: itemTokens rest

/-- The tokens of the fields of an object, with commas between them. -/
def fieldTokens : List (Str × Json) → List Token
  | [] => []
  | [(k, v)] => .str k :: .colon :: tokens v
  | (k, v) :: rest => .str k :: .colon :: tokens v ++ .comma :: fieldTokens rest

end

/-- The compact text of a value. -/
def print (v : Json) : Bytes := v.tokens.flatMap Token.octets

/-! ## Making values -/

def ofText (s : String) : Json := .str (Str.ofText s)

def object (fields : List (String × Json)) : Json :=
  .obj (fields.map fun f ↦ (Str.ofText f.1, f.2))

end Json

end Gatehouse
