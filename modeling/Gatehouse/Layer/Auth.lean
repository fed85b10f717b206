import Gatehouse.Context
import Gatehouse.Http.Cookie
import Gatehouse.Response

/-!
# Gates in front of a service

All gates ask the same question: whose token is in the cookie? They differ only in what they do
with the answer, so authentication is one function and a gate is another one on its result.
-/

namespace Gatehouse

variable {σ : Type}

def TokenError.failure : TokenError → Failure
  | .expired => .unauthorized "expired_token" "Credential has expired"
  | .invalid _ => .unauthorized "invalid_token" "Invalid credential"

def LookupError.failure : LookupError → Failure
  | .notFound id => .userLookup ("token subject " ++ id ++ " has no user record")
  | e => .userLookup e.message

/-- The user whose token is in a cookie. -/
def Headers.authenticate (h : Headers) (around : Surroundings) (cookie : String) (now : Instant) :
    Except Failure User := do
  let token ← ((h.cookie? cookie).filter fun v ↦ !v.isEmpty).elim (.error .missingCredential) .ok
  let claims ← (around.validate now token).mapError TokenError.failure
  (around.findUser claims.sub).mapError LookupError.failure

namespace Gate

/-- Whether a failure is only that no credential was brought. -/
def isMissing (f : Failure) : Bool := f.code == Failure.missingCredential.code

/-- Whom a gate lets through, as whom. -/
def letThrough (g : Gate) (who : Except Failure User) : Except Failure (Option User) :=
  match g, who with
  | .required, .ok u => .ok (some u)
  | .required, .error f => .error f
  | .admin, .ok u =>
    if u.isAdmin then .ok (some u) else .error (.forbidden "Administrator role required")
  | .admin, .error f => .error f
  | .optional, .ok u => .ok (some u)
  | .optional, .error _ => .ok none

/-- The failure that a gate reports although it lets the request through. -/
def tolerated? (g : Gate) (who : Except Failure User) : Option Failure :=
  match g, who with
  | .optional, .error f => if isMissing f then none else some f
  | _, _ => none

end Gate

namespace Service

def gated (around : Surroundings) (gate : Gate) (cookie : String) (next : Service σ) :
    Service σ := fun req ↦ do
  let who := req.headers.authenticate around cookie (← Run.now)
  match gate.tolerated? who with
  | none => pure ()
  | some f =>
    Run.count (.authFailure gate f.code)
    Run.log (.anonymous f)
  match gate.letThrough who with
  | .error f =>
    Run.count (.authFailure gate f.code)
    reject gate.operation (Context.of req) f
  | .ok none => next req
  | .ok (some u) => next { req with user := some u }

end Service

end Gatehouse
