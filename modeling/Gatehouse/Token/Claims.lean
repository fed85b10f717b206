import Gatehouse.Json.Progress
import Gatehouse.Json.Record

/-!
# Claims

What a token says: whom it is about, until when it holds and when it was issued. Times are signed
seconds since 1970, as they are written.

Besides its own three fields a record of claims may hold the customary ones of other issuers.
Those are read a second time and more closely than fields that nobody knows. A value of another
kind than is wanted, or a faulty one, is passed over; but only a reader who got to its end can go
on behind it.
-/

namespace Gatehouse

/-- What a token says. -/
structure Claims where
  sub : String
  exp : Int
  iat : Int
  deriving DecidableEq, Repr

namespace Claims

def toJson (c : Claims) : Json :=
  Json.object [("sub", .ofText c.sub), ("exp", .int c.exp), ("iat", .int c.iat)]

def ofJson? (v : Json) : Option Claims := do
  let r ← v.record? ["sub", "exp", "iat"]
  let sub ← (← r.field? "sub").text?
  let exp ← (← r.field? "exp").int64?
  let iat ← (← r.field? "iat").int64?
  return { sub, exp, iat }

def parse? (b : Bytes) : Option Claims := (Json.parse? b).bind ofJson?

/-! ## Customary claims -/

/-- How deep arrays and objects may be nested in the value of a claim that may be anything. -/
def maxDepth : Nat := 126

/-- Whether a reader who wants a number gets to the end of a value. -/
def passesAsNumber (v : Json) : Bool := v.progressToNumber != .stuck

/-- Whether a reader who wants a text or a list of texts gets to the end of a value. -/
def passesAsText (v : Json) : Bool := v.progress maxDepth != .stuck

/-- A missing value, or one with a property. -/
def missingOr (p : Json → Bool) : Option Json → Bool
  | none => true
  | some v => p v

/-- Whether the customary claims, if there are any, can be read. -/
def isCustomary (v : Json) : Bool :=
  match v with
  | .obj _ =>
    match v.record? ["exp", "nbf", "sub", "iss", "aud"] with
    | none => false
    | some r =>
      missingOr passesAsNumber (r.field? "nbf") && missingOr passesAsText (r.field? "iss") &&
        missingOr passesAsText (r.field? "aud")
  | _ => false

/-- Whether a value names an audience: a text or a list of texts. -/
def isAudience : Json → Bool
  | .str s => s.text?.isSome
  | .arr items => (items.mapM Json.text?).isSome
  | _ => false

/-- Whether the claims are meant for a particular audience. -/
def hasAudience (v : Json) : Bool :=
  match v.record? ["aud"] with
  | none => false
  | some r => (r.field? "aud").any isAudience

end Claims

end Gatehouse
