import Gatehouse.Response

/-!
# Requests from other sites

Browsers ask before they send a request to another site, and are told which origins may. Such a
question is recognised by its method alone and answered at once. Every other response says for
which origin it is meant, and that it depends on the origin.
-/

namespace Gatehouse

inductive Origins where
  | any
  | listed (origins : List Bytes)

namespace Origins

/-- The origins that some texts name; a star among them means all. -/
def ofTexts (texts : List String) : Origins :=
  if texts.contains "*" then any else listed ((texts.map utf8).filter Http.isFieldValue)

/-- What a response says about the origin that it is meant for, if it says anything. -/
def answer? (o : Origins) (origin : Option Bytes) : Option Bytes :=
  match o with
  | any => some (utf8 "*")
  | listed origins => origin.filter fun value ↦ origins.contains value

end Origins

/-- What a response depends on. -/
def varyText : String :=
  "origin, access-control-request-method, access-control-request-headers"

namespace Headers

/-- Header fields with the allowed origin, if there is one. -/
def withOrigin (h : Headers) (origin : Option Bytes) : Headers :=
  match origin with
  | none => h
  | some value => h.insert "access-control-allow-origin" value

end Headers

/-- The answer to a browser that asks before it sends a request. -/
def preflight (origin : Option Bytes) : Response :=
  .ofBytes .ok
    (Headers.withOrigin [("vary", utf8 varyText), ("access-control-allow-methods", utf8 "*"),
      ("access-control-allow-headers", utf8 "*")] origin) []

variable {σ : Type}

/-- Answer browsers that ask, and say for which origin every other response is meant. -/
def Service.sharedWith (origins : Origins) (next : Service σ) : Service σ := fun req ↦ do
  let origin := origins.answer? (req.headers.first? "origin")
  if req.method = .options then return preflight origin
  let response ← next req
  return { response with
    headers := (response.headers.append "vary" (utf8 varyText)).withOrigin origin }

end Gatehouse
