import Gatehouse.Body

/-!
# Responses and services

A service answers requests. Everything that a request passes on its way is a service around
another one, so that the whole is built from a handler outwards.
-/

namespace Gatehouse

structure Response where
  status : Http.Status
  headers : Headers
  body : Body
  deriving DecidableEq

namespace Response

def ofBytes (status : Http.Status) (headers : Headers) (body : Bytes) : Response :=
  ⟨status, headers, .full body⟩

def ofStatus (status : Http.Status) : Response := ofBytes status [] []

def ofJson (status : Http.Status) (v : Json) : Response :=
  ofBytes status [("content-type", utf8 "application/json")] v.print

/-- The response to a request that was turned away. -/
def ofFailure (f : Failure) : Response := ofJson f.status f.body.toJson

/-- The response with a header field that has a single text. -/
def withText (r : Response) (name value : String) : Response :=
  { r with headers := r.headers.insertText name value }

end Response

/-- Something that answers requests. -/
abbrev Service (σ : Type) := Request → Run σ Response

namespace Service

variable {σ : Type}

/-- A service whose visits are noted, with what it was told about the sender. -/
def observed (inner : Service σ) : Service σ := fun req ↦ do
  Run.note (.visit ⟨req.user, req.context⟩)
  inner req

/-- Turn a request away, and log it. -/
def reject (operation : String) (who : Context) (f : Failure) : Run σ Response := do
  Run.log (.rejected operation f who)
  return .ofFailure f

end Service

/-- The user of a request, for handlers that need one. -/
def Request.currentUser (req : Request) : Except Failure User :=
  match req.user with
  | none => .error .missingCredential
  | some u => .ok u

end Gatehouse
