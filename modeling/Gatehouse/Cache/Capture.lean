import Gatehouse.Cache.Entry
import Gatehouse.World

/-!
# Copying responses for the cache

While a response goes to its client a copy of its body accumulates beside it. A copy that would
grow beyond the limit is given up; one that is complete is stored under its key. A store that
fails costs a warning and nothing else.

Between the call of the store and its answer others go on, and whoever waits for the answer may give
up waiting. `finish` is the whole of it, `submit` and `settle` are the two ends. Nobody can tell at
which moment in between the store is changed; here it is the last one.
-/

namespace Gatehouse.Cache

/-- A response on its way to its client, with as much of its body as has been copied. -/
structure Capture where
  key : String
  ttl : Duration
  /-- The greatest length of a body that is stored. -/
  limit : Nat
  status : Http.Status
  headers : Headers
  copied : Bytes
  deriving DecidableEq

namespace Capture

variable {σ : Type}

/-- Copy data, or give up if the copy grows too long. -/
def record (c : Capture) (data : Bytes) : Run σ (Option Capture) :=
  if c.limit < c.copied.length + data.length then do
    Run.count (.cacheStore .skipped)
    return none
  else
    return some { c with copied := c.copied ++ data }

def entry (c : Capture) : Entry := Entry.capture c.status c.headers c.copied

/-- Store the copy. -/
def finish [CacheStore σ] (c : Capture) : Run σ Unit := do
  match ← Run.set c.key c.entry.encode c.ttl with
  | .ok () => Run.count (.cacheStore .stored)
  | .error e =>
    Run.count (.cacheStore .error)
    Run.log (.writeFailed c.key e)

/-! ## The two ends of a write -/

/-- Call the store, which does not answer yet. -/
def submit (c : Capture) : Run σ Unit := Run.note (.call ⟨.set, c.key⟩)

/-- The store, which was called before, answers. -/
def settle [CacheStore σ] (c : Capture) : Run σ Unit := do
  match ← Run.perform fun now ↦ CacheStore.set now c.key c.entry.encode c.ttl with
  | .ok () => Run.count (.cacheStore .stored)
  | .error e =>
    Run.count (.cacheStore .error)
    Run.log (.writeFailed c.key e)

theorem finish_eq [CacheStore σ] (c : Capture) :
    (c.finish : Run σ Unit) = c.submit >>= fun _ ↦ c.settle := by
  rw [finish, Run.set, Run.call_eq, bind_assoc]
  rfl

end Capture

end Gatehouse.Cache
