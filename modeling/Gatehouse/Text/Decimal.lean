import Gatehouse.Word

/-!
# Decimal numerals

Numbers appear in settings, in prefix lengths, in the cursor of a scan and in cookies of other
programs. A numeral is read from left to right and the first thing that is wrong with it is
reported: a character that is no digit, or the digit at which the value leaves its range. An
optional plus sign may lead, a minus sign is no digit.
-/

namespace Gatehouse.Text

inductive NumeralError where
  | empty
  | badDigit
  | tooLarge
  deriving DecidableEq, Repr

def NumeralError.message : NumeralError → String
  | .empty => "cannot parse integer from empty string"
  | .badDigit => "invalid digit found in string"
  | .tooLarge => "number too large to fit in target type"

def digit? (c : Char) : Option Nat :=
  if '0'.toNat ≤ c.toNat ∧ c.toNat ≤ '9'.toNat then some (c.toNat - '0'.toNat) else none

/-- Read digits after a value already read, keeping to values up to `max`. -/
def readDigits (max : Nat) (value : Nat) : List Char → Except NumeralError Nat
  | [] => .ok value
  | c :: rest =>
    match digit? c with
    | none => .error .badDigit
    | some d =>
      if max < value * 10 + d then .error .tooLarge else readDigits max (value * 10 + d) rest

/-- Read a numeral whose value is at most `max`. -/
def readNumeral (max : Nat) : List Char → Except NumeralError Nat
  | [] => .error .empty
  | ['+'] => .error .badDigit
  | '+' :: rest => readDigits max 0 rest
  | cs => readDigits max 0 cs

/-- Read a numeral that fits a word of `bits` bits. -/
def readWord (bits : Nat) (s : String) : Except NumeralError Nat :=
  readNumeral (maxWord bits) s.toList

/-- Read an integer of a signed word of `bits` bits, with an optional sign in front. -/
def readSigned (bits : Nat) (s : String) : Except NumeralError Int :=
  match s.toList with
  | ['-'] => .error .badDigit
  | '-' :: rest => (readDigits (maxSigned bits + 1) 0 rest).map fun n ↦ -(n : Int)
  | cs => (readNumeral (maxSigned bits) cs).map fun n ↦ (n : Int)

end Gatehouse.Text
