import Gatehouse.Json.Lexer

/-!
# Values from JSON texts

The tokens of a text are read once by a machine with a stack: the stack holds, for every array and
object that is open, what has been read of it. Nesting costs no recursion, so there is no depth at
which reading gives up.
-/

namespace Gatehouse.Json

/-- An array or object that is still open, with what has been read of it, the last part first. -/
inductive Open where
  | array (items : List Json)
  | object (fields : List (Str × Json)) (key : Str)

/-- What has to come next, inside which open arrays and objects. -/
inductive Awaiting where
  | value (outer : List Open)
  | firstItem (outer : List Open)
  | firstKey (outer : List Open)
  | key (outer : List Open) (fields : List (Str × Json))
  | colon (outer : List Open) (fields : List (Str × Json)) (key : Str)
  | separator (outer : List Open) (value : Json)

namespace Awaiting

/-- Read a token with which a value begins. -/
def enter? (outer : List Open) : Token → Option Awaiting
  | .null => some (.separator outer .null)
  | .bool b => some (.separator outer (.bool b))
  | .int n => some (.separator outer (.int n))
  | .real x => some (.separator outer (.real x))
  | .str s => some (.separator outer (.str s))
  | .openArray => some (.firstItem outer)
  | .openObject => some (.firstKey outer)
  | _ => none

/-- Read a token behind a whole value. -/
def follow? (value : Json) : List Open → Token → Option Awaiting
  | .array items :: outer, .comma => some (.value (.array (value :: items) :: outer))
  | .array items :: outer, .closeArray => some (.separator outer (.arr (value :: items).reverse))
  | .object fields k :: outer, .comma => some (.key outer ((k, value) :: fields))
  | .object fields k :: outer, .closeObject =>
    some (.separator outer (.obj ((k, value) :: fields).reverse))
  | _, _ => none

def read? : Awaiting → Token → Option Awaiting
  | .value outer, t => enter? outer t
  | .firstItem outer, .closeArray => some (.separator outer (.arr []))
  | .firstItem outer, t => enter? (.array [] :: outer) t
  | .firstKey outer, .closeObject => some (.separator outer (.obj []))
  | .firstKey outer, .str k => some (.colon outer [] k)
  | .key outer fields, .str k => some (.colon outer fields k)
  | .colon outer fields k, .colon => some (.value (.object fields k :: outer))
  | .separator outer v, t => follow? v outer t
  | _, _ => none

def readAll? (a : Awaiting) : List Token → Option Awaiting
  | [] => some a
  | t :: rest => (a.read? t).bind fun next ↦ next.readAll? rest

end Awaiting

def ofTokens? (ts : List Token) : Option Json :=
  match (Awaiting.value []).readAll? ts with
  | some (.separator [] v) => some v
  | _ => none

def parse? (b : Bytes) : Option Json := (tokens? b).bind ofTokens?

end Gatehouse.Json
