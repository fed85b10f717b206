import Gatehouse.Cache.Key
import Gatehouse.Response

/-!
# Answering from the cache

A request for a representation is answered from the cache if there is a readable entry for it.
Otherwise the service behind is asked, and its response, if it may be stored at all, goes to the
client with a copy of its body growing beside it. Nothing that goes wrong with the cache is ever
seen by a client.

Requests that change something can be followed by an invalidation: all keys that match a pattern
are deleted, whatever the response was.
-/

namespace Gatehouse

structure CacheSettings where
  ttl : Duration
  /-- What all keys begin with. -/
  space : String
  /-- The greatest length of a body that is stored. -/
  maxEntryBytes : Nat
  deriving DecidableEq, Repr

namespace CacheSettings

/-- What keys begin with if nothing else is said. -/
def defaultSpace : String := "cache:"

/-- The greatest length of a stored body if nothing else is said. -/
def defaultMaxEntryBytes : Nat := 1024 * 1024

def key (settings : CacheSettings) (req : Request) : String :=
  Cache.key settings.space req.method.name req.target.path (req.target.query.getD "")
    (req.user.map User.id)

end CacheSettings

namespace Service

variable {σ : Type}

def lookup? [CacheStore σ] (key : String) : Run σ (Option Response) := do
  match ← Run.get key with
  | .error e =>
    Run.count (.cacheLookup .error)
    Run.log (.readFailed key e)
    return none
  | .ok none =>
    Run.count (.cacheLookup .miss)
    return none
  | .ok (some raw) =>
    match Cache.Entry.restore raw with
    | .error e =>
      Run.count (.cacheLookup .error)
      Run.log (.unreadable key e)
      return none
    | .ok (status, headers, body) =>
      Run.count (.cacheLookup .hit)
      return some (.ofBytes status headers body)

/-- The response with a copy beside its body, if it may be stored: it has the status 200, sets no
cookie and is not known to be too long. -/
def capturing (settings : CacheSettings) (key : String) (response : Response) :
    Run σ Response :=
  if response.status ≠ .ok then return response
  else if response.headers.contains Cache.Entry.setCookie then do
    Run.count (.cacheStore .skipped)
    return response
  else if settings.maxEntryBytes < response.body.hint.lower then do
    Run.count (.cacheStore .skipped)
    return response
  else
    let copy : Cache.Capture :=
      { key, ttl := settings.ttl, limit := settings.maxEntryBytes, status := response.status
        headers := response.headers, copied := [] }
    return { response with body := .copied response.body (some copy) }

/-- Answer from the cache where that is possible. -/
def cached [CacheStore σ] (settings : CacheSettings) (next : Service σ) : Service σ := fun req ↦
  if req.method ≠ .get then next req
  else do
    let key := settings.key req
    match ← lookup? key with
    | some response => return response
    | none => capturing settings key (← next req)

/-! ### Where the program may end

A value in the store may be the record of a response with more header fields than a message takes.
A look at it ends the program, and what the program has done before is of no more interest. -/

/-- Look a response up where messages take the fields that `fits` admits. -/
def lookupWithin? [CacheStore σ] (fits : Headers → Bool) (key : String) (w : World σ) :
    Option (Option Response × World σ) :=
  match (Run.get key w).1 with
  | .ok (some raw) => (Cache.Entry.restoreWithin? fits raw).map fun _ ↦ lookup? key w
  | _ => some (lookup? key w)

/-- Answer from the cache, where messages take the fields that `fits` admits. -/
def cachedWithin? [CacheStore σ] (fits : Headers → Bool) (settings : CacheSettings)
    (next : Service σ) (req : Request) (w : World σ) : Option (Response × World σ) :=
  if req.method ≠ .get then some (next req w)
  else (lookupWithin? fits (settings.key req) w).map fun _ ↦ cached settings next req w

/-! ### Invalidating -/

/-- Delete the keys that match a pattern. -/
def invalidation [CacheStore σ] (pattern : String) : Run σ Unit := do
  match ← Run.deleteByPattern pattern with
  | .ok _ => Run.count (.cacheInvalidation true)
  | .error e =>
    Run.count (.cacheInvalidation false)
    Run.log (.invalidationFailed pattern e)

/-- Delete the keys that match a pattern after a request was answered. -/
def invalidating [CacheStore σ] (pattern : String) (next : Service σ) : Service σ := fun req ↦ do
  let response ← next req
  invalidation pattern
  return response

end Service

end Gatehouse
