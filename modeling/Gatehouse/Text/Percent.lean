import Gatehouse.Bytes
import Gatehouse.Text

/-!
# Percent encoding

In cookies and addresses an octet may be written as a percent sign and two hexadecimal digits. A
percent sign that is not followed by two digits stands for itself, so every octet string can be
decoded; only its result may be no text.
-/

namespace Gatehouse.Text

/-- Replace every percent sign that has two hexadecimal digits behind it, and the digits, by the
octet that they mean. -/
def percentDecoded : Bytes → Bytes
  | 0x25 :: high :: low :: rest =>
    match hexValue? high, hexValue? low with
    | some h, some l => UInt8.ofNat (h * 16 + l) :: percentDecoded rest
    | _, _ => 0x25 :: percentDecoded (high :: low :: rest)
  | b :: rest => b :: percentDecoded rest
  | [] => []

/-- The text that a percent-encoded text stands for. -/
def percentDecode? (s : String) : Option String := ofUtf8? (percentDecoded (utf8 s))

/-! ## Queries

A query is a list of names with values, joined by ampersands. A plus sign stands for a blank. -/

/-- A name or a value of a query; one that is no text is read as the replacement character. -/
def queryPart (s : String) : String :=
  (percentDecode? (String.ofList (s.toList.map fun c ↦ if c = '+' then ' ' else c))).getD "\uFFFD"

/-- A name with its value, which is empty if there is no equals sign. -/
def queryField (s : String) : String × String :=
  match cut? '=' s with
  | none => (queryPart s, "")
  | some (name, value) => (queryPart name, queryPart value)

/-- The last value that a query gives a name. -/
def queryValue? (query name : String) : Option String :=
  let fields := ((pieces '&' query).filter fun s ↦ !s.isEmpty).map queryField
  (fields.reverse.find? fun f ↦ f.1 == name).map Prod.snd

end Gatehouse.Text
