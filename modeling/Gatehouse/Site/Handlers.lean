import Gatehouse.Response
import Gatehouse.Settings
import Gatehouse.Time.Rfc3339

/-!
# Handlers

What the routes answer. All answers are JSON records; the purge answers nothing and leaves the
deleting to the layer around it.
-/

namespace Gatehouse

def version : String := "0.1.0"

namespace Handlers

variable {σ : Type}

def health : Service σ := fun _ ↦ do
  return .ofJson .ok (Json.object [("status", .ofText "healthy"), ("version", .ofText version),
    ("timestamp", .ofText (← Run.now).rfc3339)])

def readiness (reachable : Bool) : Json :=
  Json.object [("ready", .bool reachable), ("store_reachable", .bool reachable)]

/-- Say whether the store answers. -/
def ready [CacheStore σ] : Service σ := fun _ ↦ do
  match ← Run.ping with
  | .ok () => return .ofJson .ok (readiness true)
  | .error e =>
    Run.log (.storeUnreachable e)
    return .ofJson .serviceUnavailable (readiness false)

def limitRecord (s : Settings) : Json :=
  if s.isLimited then
    Json.object [("limit", .int s.limit), ("window_seconds", .int s.window.wholeSecs),
      ("expiry", .ofText s.policy.name)]
  else .null

/-- The whole seconds that a program has been running. -/
def uptimeSecs (started now : Instant) : Nat := Duration.wholeSecs (now - started)

/-- The record of settings at an instant. -/
def statsRecord (s : Settings) (started now : Instant) : Json :=
  Json.object [("version", .ofText version),
    ("uptime_seconds", .int (uptimeSecs started now)),
    ("rate_limit", limitRecord s),
    ("cache", Json.object [("ttl_seconds", .int s.cacheTtl.wholeSecs),
      ("namespace", .ofText s.cacheSpace)]),
    ("generated_at", .ofText now.rfc3339)]

/-- Say how the program is set up and how long it has been running. -/
def stats (s : Settings) (started : Instant) : Service σ := fun _ ↦ do
  return .ofJson .ok (statsRecord s started (← Run.now))

/-- Tell users who they are. -/
def me : Service σ := fun req ↦
  match req.currentUser with
  | .error f => return .ofFailure f
  | .ok u => return .ofJson .ok u.toJson

def sessionRecord (user : Option User) : Json :=
  Json.object (("authenticated", .bool user.isSome) ::
    match user with
    | none => []
    | some u => [("user", u.toJson)])

/-- Tell anybody who they are. -/
def session : Service σ := fun req ↦ return .ofJson .ok (sessionRecord req.user)

/-- Accept that the cache be purged. -/
def purge : Service σ := fun req ↦
  match req.currentUser with
  | .error f => return .ofFailure f
  | .ok u => do
    Run.log (.purgeRequested u)
    return .ofStatus .noContent

end Handlers

end Gatehouse
