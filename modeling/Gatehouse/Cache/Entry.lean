import Gatehouse.Base64
import Gatehouse.Http.Headers
import Gatehouse.Http.Status
import Gatehouse.Json.Record

/-!
# Stored responses

A response is stored as a JSON record of its status, its header fields and its body in base 64.
Cookies belong to the client that caused the response and are left out; so are values that are no
texts, since a JSON string could not give them back.

Replaying is strict about the status and the body and lenient about single header fields: a field
that is no header field is left out. A record may have more header fields than a message takes, and
replaying it is then the end of the program: `replayWithin?` says when that is, for messages that
take the fields they are said to take.
-/

namespace Gatehouse.Cache

/-- A stored response. -/
structure Entry where
  /-- A number of 16 bits. -/
  status : Nat
  headers : List (String × String)
  body : String
  deriving DecidableEq, Repr

/-- Why a stored response cannot be replayed. -/
inductive EntryError where
  | malformed
  | body
  | status (code : Nat)
  deriving DecidableEq, Repr

def EntryError.message : EntryError → String
  | .malformed => "malformed entry"
  | .body => "invalid body encoding"
  | .status code => "invalid status code " ++ code.repr

namespace Entry

def setCookie : String := "set-cookie"

def capture (status : Http.Status) (headers : Headers) (body : Bytes) : Entry where
  status := status.code
  headers :=
    (headers.grouped.filter fun f ↦ f.1 ≠ setCookie).filterMap fun f ↦
      (Http.textOf? f.2).map fun text ↦ (f.1, text)
  body := Base64.standard.encode body

/-! ## The record -/

def fieldToJson (f : String × String) : Json := .arr [.ofText f.1, .ofText f.2]

def fieldOfJson? : Json → Option (String × String)
  | .arr [name, value] =>
    match name.text?, value.text? with
    | some name, some value => some (name, value)
    | _, _ => none
  | _ => none

def toJson (e : Entry) : Json :=
  Json.object [("status", .int e.status), ("headers", .arr (e.headers.map fieldToJson)),
    ("body", .ofText e.body)]

def ofJson? (v : Json) : Option Entry := do
  let r ← v.record? ["status", "headers", "body"]
  let status ← (← r.field? "status").word16?
  let headers ← (← r.field? "headers").list? fieldOfJson?
  let body ← (← r.field? "body").text?
  return { status, headers, body }

def encode (e : Entry) : Bytes := e.toJson.print

def decode? (b : Bytes) : Option Entry := (Json.parse? b).bind ofJson?

/-! ## Replaying -/

/-- A header field of a replayed response, if it is one. -/
def replayedField? (f : String × String) : Option (String × Bytes) :=
  match Http.fieldName? f.1 with
  | none => none
  | some name => if Http.isFieldValue (utf8 f.2) then some (name, utf8 f.2) else none

/-- The response of an entry: its status, its header fields and its body. -/
def replay (e : Entry) : Except EntryError (Http.Status × Headers × Bytes) :=
  match Http.Status.ofNat? e.status with
  | none => .error (.status e.status)
  | some status =>
    match Base64.standard.decode? e.body with
    | none => .error .body
    | some body => .ok (status, e.headers.filterMap replayedField?, body)

def restore (b : Bytes) : Except EntryError (Http.Status × Headers × Bytes) :=
  match decode? b with
  | none => .error .malformed
  | some e => e.replay

/-- Replay an entry where messages take the fields that `fits` admits. -/
def replayWithin? (fits : Headers → Bool) (e : Entry) :
    Option (Except EntryError (Http.Status × Headers × Bytes)) :=
  match e.replay with
  | .error err => some (.error err)
  | .ok (status, fields, body) =>
    if fits fields then some (.ok (status, fields, body)) else none

def restoreWithin? (fits : Headers → Bool) (b : Bytes) :
    Option (Except EntryError (Http.Status × Headers × Bytes)) :=
  match decode? b with
  | none => some (.error .malformed)
  | some e => e.replayWithin? fits

end Entry

end Gatehouse.Cache
