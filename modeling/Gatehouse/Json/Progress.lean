import Gatehouse.Json.Magnitude

/-!
# How far a reader gets

A reader may be content to learn that a value is not what it wants. Whether it can go on behind
the value then depends on where it stopped: at the value's end, or in the midst of it. Stopping at
the end is common, because most faults of a string or a number show only when all of it is read,
and because a closing bracket is still taken after a fault in the last part of what it closes.
-/

namespace Gatehouse.Json

/-- How far a reader got in a value. -/
inductive Progress where
  /-- The value is read. -/
  | read
  /-- The value is faulty, and nothing of it is left. -/
  | spent
  /-- The value is faulty, and the rest of it is left. -/
  | stuck
  deriving DecidableEq, Repr

/-- The progress in several parts by that in the first part, whether it is the last one, and that
in the others. -/
def Progress.followedBy (first : Progress) (last : Bool) (others : Progress) : Progress :=
  match first with
  | .read => others
  | .spent => if last then .spent else .stuck
  | .stuck => .stuck

/-- The progress in the escapes of a string. A leading surrogate looks at the two octets behind it
before it gives up, so at the end of the string it takes the closing quote. -/
def Str.escapeProgress : Str → Progress
  | [] => .read
  | .plain _ _ :: rest => escapeProgress rest
  | .escape _ :: rest => escapeProgress rest
  | .unicode n :: rest =>
    if isTrailing n then .stuck
    else if isLeading n then
      match rest with
      | [] => .spent
      | .unicode m :: more => if isTrailing m then escapeProgress more else .stuck
      | _ => .stuck
    else escapeProgress rest

/-- The progress in a string. That its octets are a text is looked at behind its end. -/
def Str.progress (s : Str) : Progress :=
  match s.escapeProgress with
  | .read => if (Str.text? s).isSome then .read else .spent
  | p => p

/-- The progress in a number whose significand and power are known. -/
def Scaled.progress (x : Scaled) : Progress := if x.isTooLarge then .spent else .read

/-- The progress in an exponent and thereby in the number that it belongs to. -/
def Scaled.exponentProgress (x : Scaled) (exponent : Bytes) : Progress :=
  let negative := exponent.head? == some 0x2D
  match Exponent.ofDigits 0 (exponent.dropWhile fun b ↦ !isDigit b) with
  | .value n => { x with power := if negative then x.power - n else x.power + n }.progress
  | .tooLarge left =>
    if x.significand = 0 || negative then .read else if left.isEmpty then .spent else .stuck

def numberProgress (b : Bytes) : Progress :=
  let (whole, tail) := spanDigits (unsigned b)
  let x := Scaled.readWhole ⟨0, 0⟩ whole
  let (x, tail) :=
    match tail with
    | 0x2E :: rest => (x.readFraction (spanDigits rest).1, (spanDigits rest).2)
    | _ => (x, tail)
  match tail with
  | [] => x.progress
  | _ :: exponent => x.exponentProgress exponent

mutual

/-- The progress in a value of whatever kind, whose arrays and objects may be nested to a limited
depth. -/
def progress (depth : Nat) : Json → Progress
  | .null => .read
  | .bool _ => .read
  | .int n => numberProgress (integerOctets n)
  | .real x => numberProgress x.spelling
  | .str s => s.progress
  | .arr items =>
    match depth with
    | 0 => .stuck
    | inner + 1 => itemsProgress inner items
  | .obj fields =>
    match depth with
    | 0 => .stuck
    | inner + 1 => fieldsProgress inner fields

def itemsProgress (depth : Nat) : List Json → Progress
  | [] => .read
  | v :: rest => (progress depth v).followedBy rest.isEmpty (itemsProgress depth rest)

def fieldsProgress (depth : Nat) : List (Str × Json) → Progress
  | [] => .read
  | (k, v) :: rest =>
    if k.text?.isNone then .stuck
    else (progress depth v).followedBy rest.isEmpty (fieldsProgress depth rest)

end

/-- The progress of a reader in a value who wants a number and looks into nothing. -/
def progressToNumber : Json → Progress
  | .arr items => if items.isEmpty then .spent else .stuck
  | .obj fields => if fields.isEmpty then .spent else .stuck
  | v => progress 0 v

end Gatehouse.Json
