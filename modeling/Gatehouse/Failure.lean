import Gatehouse.Http.Status
import Gatehouse.Json.Record
import Gatehouse.Store.Basic

/-!
# Failures

A request that is turned away fails for one of a few causes. Every cause has a status, a code and
two wordings: one for the log, which tells all, and one for the client, which tells nothing about
stores, directories or settings.
-/

namespace Gatehouse

/-- Why a request, or the start of the program, failed. -/
inductive Failure where
  | unauthorized (code message : String)
  | forbidden (message : String)
  | rateLimited
  | store (e : StoreError)
  | userLookup (reason : String)
  | config (reason : String)
  deriving DecidableEq, Repr

/-- What a client is told about a failure. -/
structure ErrorBody where
  error : String
  code : Option String
  deriving DecidableEq, Repr

namespace ErrorBody

/-- The record of an error; without a code it has one field. -/
def toJson (b : ErrorBody) : Json :=
  Json.object (("error", .ofText b.error) ::
    match b.code with
    | none => []
    | some code => [("code", .ofText code)])

/-- Read a record. Among the items of an array the code may be null but not missing. -/
def ofJson? (v : Json) : Option ErrorBody := do
  let r ← v.record? ["error", "code"]
  let error ← (← r.field? "error").text?
  let code ← Json.optional? Json.text? (r.field? "code")
  return { error, code }

def parse? (b : Bytes) : Option ErrorBody := (Json.parse? b).bind ofJson?

end ErrorBody

namespace Failure

def missingCredential : Failure := .unauthorized "missing_credential" "Authentication required"

def status : Failure → Http.Status
  | .unauthorized _ _ => .unauthorized
  | .forbidden _ => .forbidden
  | .rateLimited => .tooManyRequests
  | .store _ => .internalError
  | .userLookup _ => .internalError
  | .config _ => .internalError

/-- The code by which programs know the failure. -/
def code : Failure → String
  | .unauthorized code _ => code
  | .forbidden _ => "forbidden"
  | .rateLimited => "rate_limited"
  | .store _ => "store_unavailable"
  | .userLookup _ => "user_lookup_failed"
  | .config _ => "config_error"

/-- The wording for the log. -/
def message : Failure → String
  | .unauthorized _ message => "Unauthorized: " ++ message
  | .forbidden message => "Forbidden: " ++ message
  | .rateLimited => "Rate limit exceeded"
  | .store e => "Store error: " ++ e.message
  | .userLookup reason => "User lookup failed: " ++ reason
  | .config reason => "Configuration error: " ++ reason

/-- The wording for the client. -/
def publicMessage : Failure → String
  | .unauthorized _ message => message
  | .forbidden message => message
  | .rateLimited => "Too many requests. Please retry later."
  | .store _ => "An internal error occurred. Please try again later."
  | .userLookup _ => "An internal error occurred. Please try again later."
  | .config _ => "Service configuration error."

/-- What a client is told. -/
def body (f : Failure) : ErrorBody := ⟨f.publicMessage, some f.code⟩

end Failure

end Gatehouse
