import Gatehouse.Json.Record

/-!
# Names of algorithms

Headers name the algorithm of a signature, and keys name the one they are meant for. A name is
written as a text, or as an object whose only field has that name and says nothing more.
-/

namespace Gatehouse.Token

/-! ## Names in JSON -/

/-- The name that a value is: a text, or an object whose only field has that name and is empty. -/
def nameBy? (isEmpty : Json → Bool) : Json → Option String
  | .str s => s.text?
  | .obj [(k, v)] => if isEmpty v then k.text? else none
  | _ => none

def isNull : Json → Bool
  | .null => true
  | _ => false

/-- The value null, or an object without fields. -/
def isNullOrBare : Json → Bool
  | .null => true
  | .obj [] => true
  | _ => false

/-- The name among some that a value is. -/
def nameAmong? (names : List String) (isEmpty : Json → Bool) (v : Json) : Option String :=
  (nameBy? isEmpty v).filter names.contains

/-! ## Algorithms -/

def signingAlgorithms : List String :=
  ["HS256", "HS384", "HS512", "ES256", "ES384", "RS256", "RS384", "RS512", "PS256", "PS384",
    "PS512", "EdDSA"]

/-- The algorithms that a key may be meant for: those that sign, and some that encrypt. -/
def keyAlgorithms : List String := signingAlgorithms ++ ["RSA1_5", "RSA-OAEP", "RSA-OAEP-256"]

end Gatehouse.Token
