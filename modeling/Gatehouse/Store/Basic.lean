import Gatehouse.Bytes
import Gatehouse.Text
import Gatehouse.Time

/-!
# Shared stores

Counters and cached responses live in a store that many processes may share. The library sees a
store through two narrow sets of operations, one for counters and one for cached values; every
operation is told the present instant, takes the store's state and may fail.

A failure says only whether the store answered with an error or could not be reached. Its text is
for the log; no client ever sees it.
-/

namespace Gatehouse

inductive StoreError where
  | command (reason : String)
  | unavailable (reason : String)
  deriving DecidableEq, Repr

def StoreError.message : StoreError → String
  | .command reason => "Redis command failed: " ++ reason
  | .unavailable reason => "Store unavailable: " ++ reason

/-! ## Expiry policies -/

/-- What an increment does to the expiry that a counter already has: move it, or leave it. -/
inductive ExpiryPolicy where
  | rolling
  | fixed
  deriving DecidableEq, Repr

namespace ExpiryPolicy

/-- A text, in small letters, that names no policy. -/
structure Unknown where
  text : String
  deriving DecidableEq, Repr

def Unknown.message (e : Unknown) : String :=
  "expected 'rolling' or 'fixed', got '" ++ e.text ++ "'"

def name : ExpiryPolicy → String
  | .rolling => "rolling"
  | .fixed => "fixed"

/-- The policy with the given name; blanks around it and capitals do not matter. -/
def parse (s : String) : Except Unknown ExpiryPolicy :=
  let text := Text.lower (Text.trim s)
  if text = rolling.name then .ok .rolling
  else if text = fixed.name then .ok .fixed
  else .error ⟨text⟩

end ExpiryPolicy

/-! ## Operations -/

inductive StoreOp where
  | increment
  | ttl
  | get
  | set
  | deleteByPattern
  | ping
  deriving DecidableEq, Repr

def StoreOp.name : StoreOp → String
  | .increment => "increment"
  | .ttl => "ttl"
  | .get => "get"
  | .set => "set"
  | .deleteByPattern => "delete_by_pattern"
  | .ping => "ping"

/-- An operation on a store whose state is a `σ`. -/
abbrev Access (σ α : Type) := σ → Except StoreError α × σ

/-- A store of counters that expire. -/
class CounterStore (σ : Type) where
  /-- Add one to a counter and see to its expiry, in one step; the answer is the new count. -/
  increment (now : Instant) (key : String) (window : Duration) (policy : ExpiryPolicy) :
    Access σ Nat
  /-- The time that a key has left, if it exists. -/
  ttl (now : Instant) (key : String) : Access σ (Option Duration)

/-- A store of values that expire. -/
class CacheStore (σ : Type) where
  /-- The value of a key, if it exists. -/
  get (now : Instant) (key : String) : Access σ (Option Bytes)
  /-- Give a key a value for some time. -/
  set (now : Instant) (key : String) (value : Bytes) (ttl : Duration) : Access σ Unit
  /-- Delete the keys that match a glob pattern; the answer is how many existed. -/
  deleteByPattern (now : Instant) (pattern : String) : Access σ Nat
  /-- Find out whether the store answers. -/
  ping (now : Instant) : Access σ Unit

end Gatehouse
