import Gatehouse.Context
import Gatehouse.Response
import Gatehouse.Uuid

/-!
# Marks on every response

The two outermost layers put something on every response, whoever gave it: the id under which the
log knows the request, and the fields that tell browsers to be careful.
-/

namespace Gatehouse

variable {σ : Type}

/-! ## Request ids -/

def requestIdField : String := "x-request-id"

/-- Give a request an id, find out who is asking, and put the id on the response. -/
def Service.identified (around : Surroundings) (trust : Net.Trust) (next : Service σ) : Service σ :=
  fun req ↦ do
    let id := Uuid.ofRandom (← Run.draw around)
    let response ← next { req with context := some (Context.capture req id trust) }
    return response.withText requestIdField id

/-! ## Security headers -/

/-- The fields that tell browsers to be careful. -/
def securityFields : List (String × String) := [
  ("x-content-type-options", "nosniff"),
  ("x-frame-options", "DENY"),
  ("x-xss-protection", "1; mode=block"),
  ("strict-transport-security", "max-age=31536000; includeSubDomains"),
  ("content-security-policy", "default-src 'none'; frame-ancestors 'none'"),
  ("referrer-policy", "strict-origin-when-cross-origin")]

def Headers.secured (h : Headers) : Headers :=
  securityFields.foldl (fun h f ↦ h.insertText f.1 f.2) h

def Service.secured (next : Service σ) : Service σ := fun req ↦ do
  let response ← next req
  return { response with headers := response.headers.secured }

end Gatehouse
