import Gatehouse.Json.Parser
import Gatehouse.Word

/-!
# Records in JSON

A record is read from an object by the names of its fields, in any order and among any others, or
from an array that has exactly its fields in their order. A name that the record knows may occur
once; every name has to be a text, also one that the record does not know.
-/

namespace Gatehouse.Json

/-- The fields of a record that were found. -/
abbrev Record := List (String × Json)

/-- The value of a field, if it was found. -/
def Record.field? (r : Record) (name : String) : Option Json :=
  (r.find? fun f ↦ f.1 == name).map Prod.snd

def namedFields? : List (Str × Json) → Option (List (String × Json))
  | [] => some []
  | (k, v) :: rest =>
    match k.text?, namedFields? rest with
    | some name, some more => some ((name, v) :: more)
    | _, _ => none

/-- The fields with the given names, none of which may occur twice. -/
def record? (names : List String) : Json → Option Record
  | .obj fields =>
    (namedFields? fields).bind fun named ↦
      let known := named.filter fun f ↦ names.contains f.1
      if (known.map Prod.fst).Nodup then some known else none
  | .arr items => if items.length = names.length then some (names.zip items) else none
  | _ => none

/-! ## Values of fields -/

def text? : Json → Option String
  | .str s => s.text?
  | _ => none

/-- The integer between two bounds that a value is. -/
def intIn? (low high : Int) : Json → Option Int
  | .int n => if low ≤ n ∧ n ≤ high then some n else none
  | _ => none

def int64? : Json → Option Int := intIn? (-(maxSigned 64 : Int) - 1) (maxSigned 64)

def word16? (v : Json) : Option Nat := (intIn? 0 (maxWord 16) v).map Int.toNat

/-- The items of an array, each read in the same way. -/
def list? {α : Type} (item? : Json → Option α) : Json → Option (List α)
  | .arr items => items.mapM item?
  | _ => none

/-- A value that may be missing or null. -/
def optional? {α : Type} (value? : Json → Option α) : Option Json → Option (Option α)
  | none => some none
  | some .null => some none
  | some v => (value? v).map some

end Gatehouse.Json
