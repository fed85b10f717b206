import Gatehouse.World

/-!
# Limiting requests

Every client has a counter in the store, and every request of the client adds one to it. A request
is admitted if the count with itself included is within the limit. Whether the counter's expiry
moves with every request or stays where the first one put it is the policy's business.

A decision also says when the counter expires. That instant is reported in whole seconds and
rounded up, so that a client who waits for it does not come too early.
-/

namespace Gatehouse

/-- How many requests a client may make in which time. -/
structure Limiter where
  limit : Nat
  window : Duration
  keyPrefix : String
  policy : ExpiryPolicy
  limit_pos : 0 < limit
  one_second_le : nanosPerSec ≤ window

inductive LimiterError where
  | zeroLimit
  | zeroWindow
  deriving DecidableEq, Repr

def LimiterError.message : LimiterError → String
  | .zeroLimit => "rate limit must be greater than 0; omit the layer for no limiting"
  | .zeroWindow => "rate limit window must be at least one second"

/-- The verdict on a request. -/
structure Decision where
  admitted : Bool
  limit : Nat
  remaining : Nat
  /-- The second at which the counter expires. -/
  resetAt : Int
  deriving DecidableEq, Repr

namespace Decision

/-- Report a decision in header fields, in place of what they may have said. -/
def report (d : Decision) (h : Headers) : Headers :=
  ((h.insertText "x-ratelimit-limit" d.limit.repr).insertText
    "x-ratelimit-remaining" d.remaining.repr).insertText
    "x-ratelimit-reset" d.resetAt.repr

/-- The seconds from now until the counter expires, at least one. -/
def retryAfter (d : Decision) (now : Int) : Int := max (wrapSigned 64 (d.resetAt - now)) 1

end Decision

namespace Limiter

/-- What counters are called if nothing else is said. -/
def defaultKeyPrefix : String := "rate_limit:"

def new (limit : Nat) (window : Duration) (keyPrefix : String) (policy : ExpiryPolicy) :
    Except LimiterError Limiter :=
  if hl : limit = 0 then .error .zeroLimit
  else if hw : window < nanosPerSec then .error .zeroWindow
  else .ok ⟨limit, window, keyPrefix, policy, Nat.pos_of_ne_zero hl, Nat.le_of_not_lt hw⟩

def key (l : Limiter) (client : String) : String := l.keyPrefix ++ client

/-- The seconds of a length of time, rounded up, in a word of 64 bits. -/
def roundedSecs (d : Duration) : Nat := d.ceilSecs % wordSize 64

/-- The second in which a length of time that begins now is over; the last one that can be
written, if it is later. -/
def endOf (now : Instant) (d : Duration) : Int :=
  min (now.unixSecs + min (roundedSecs d) maxSecs) maxSecs

/-- The verdict on a request with a count. Where the time left is not known, it is taken to be the
whole window. -/
def decide (l : Limiter) (now : Instant) (count : Nat)
    (ttl : Except StoreError (Option Duration)) : Decision where
  admitted := count ≤ l.limit
  limit := l.limit
  remaining := l.limit - count
  resetAt :=
    endOf now <|
      match ttl with
      | .ok (some left) => left
      | _ => l.window

variable {σ : Type}

/-- Count a request of a client and decide on it. -/
def check [CounterStore σ] (l : Limiter) (client : String) :
    Run σ (Except StoreError Decision) := do
  match ← Run.increment (l.key client) l.window l.policy with
  | .error e => return .error e
  | .ok count =>
    let ttl ← Run.ttl (l.key client)
    return .ok (l.decide (← Run.now) count ttl)

end Limiter

end Gatehouse
