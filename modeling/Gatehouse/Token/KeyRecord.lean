import Gatehouse.Json.Progress
import Gatehouse.Token.Algorithm

/-!
# Key records

A header may carry the key that its token claims to be signed with. The key is not used, but it
has to be a key: a record with some fields that keys of every kind may have, and with all the
fields of one kind.
-/

namespace Gatehouse.Token

/-- A field of a record that occurs exactly once. -/
def soleField? (fields : List (String × Json)) (name : String) : Option Json :=
  match fields.filter fun f ↦ f.1 == name with
  | [(_, v)] => some v
  | _ => none

/-! ## Fields of every key -/

/-- The fields of every key that are texts. -/
def textFields : List String := ["use", "kid", "x5u", "x5t", "x5t#S256"]

/-- The fields of every key that are lists of texts. -/
def listFields : List String := ["key_ops", "x5c"]

/-- The names of the fields that keys of every kind may have. -/
def commonFields : List String := "alg" :: textFields ++ listFields

/-- Whether the value of a field suits its name. -/
def isCommonValue (name : String) (v : Json) : Bool :=
  if textFields.contains name then (Json.optional? Json.text? (some v)).isSome
  else if listFields.contains name then
    (Json.optional? (Json.list? Json.text?) (some v)).isSome
  else (Json.optional? (nameAmong? keyAlgorithms isNullOrBare) (some v)).isSome

/-- Whether the fields that keys of every kind may have are in order: each occurs once at most and
has a value that suits it. -/
def areCommonFields (fields : List (String × Json)) : Bool :=
  let common := fields.filter fun f ↦ commonFields.contains f.1
  (common.map Prod.fst).Nodup && common.all fun f ↦ isCommonValue f.1 f.2

/-! ## Kinds of keys -/

def curves : List String := ["P-256", "P-384", "P-521", "Ed25519"]

/-- What a field of a kind of key has to be. -/
inductive KeyField where
  | text
  | oneOf (names : List String)

/-- Whether a value is what a field has to be. -/
def KeyField.holds : KeyField → Json → Bool
  | .text, v => v.text?.isSome
  | .oneOf names, v => (nameAmong? names isNull v).isSome

/-- The fields of each kind of key. -/
def keyKinds : List (List (String × KeyField)) :=
  [[("kty", .oneOf ["EC"]), ("crv", .oneOf curves), ("x", .text), ("y", .text)],
    [("kty", .oneOf ["RSA"]), ("n", .text), ("e", .text)],
    [("kty", .oneOf ["oct"]), ("k", .text)],
    [("kty", .oneOf ["OKP"]), ("crv", .oneOf curves), ("x", .text)]]

def isKeyOfKind (kind : List (String × KeyField)) (fields : List (String × Json)) : Bool :=
  kind.all fun f ↦ (soleField? fields f.1).any f.2.holds

/-! ## Keys -/

/-- How deep arrays and objects may be nested in the value of a field. -/
def maxKeyDepth : Nat := 125

def isKey : Json → Bool
  | .obj fields =>
    fields.all (fun f ↦ f.2.progress maxKeyDepth == .read) &&
      match Json.namedFields? fields with
      | none => false
      | some named => areCommonFields named && keyKinds.any fun kind ↦ isKeyOfKind kind named
  | _ => false

end Gatehouse.Token
