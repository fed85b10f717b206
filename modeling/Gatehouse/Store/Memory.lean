import Gatehouse.Glob
import Gatehouse.Store.Basic
import Gatehouse.Table

/-!
# A store in memory

Every entry carries the instant at which it expires. An expired entry counts as absent, but it is
not hunted down at once: reading a value drops it, a write takes its place, and the first write
after every minute sweeps all expired entries out. No operation but `purgeExpired` can tell an
expired entry from an absent one.

## Writes on a clock that ends

A write that has to note an instant beyond the last one of the clock ends the program, and with it
the store: the program is released so that it aborts there and does not unwind, and nobody sees the
count that was raised before its end was asked for. `increment?` and `set?` are the writes as they
are made, and have no result in this case; `increment` and `set` are the same writes on a clock that
never ends, for use where no window is too long.
-/

namespace Gatehouse

/-- What a key holds. -/
inductive Held where
  | counter (n : Nat)
  | value (b : Bytes)
  deriving DecidableEq, Repr

/-- What is read from a key; a counter is read as its decimal text. -/
def Held.octets : Held → Bytes
  | .counter n => utf8 n.repr
  | .value b => b

/-- What a key holds, and until when. -/
structure Entry where
  held : Held
  expires : Instant
  deriving DecidableEq, Repr

namespace Entry

/-- Whether the entry still exists; at the very instant of its expiry it does not. -/
def isLive (e : Entry) (now : Instant) : Bool := now < e.expires

end Entry

/-- A store that lives in the memory of one process. -/
structure MemoryStore where
  entries : Table String Entry
  created : Instant
  /-- The milliseconds after the creation at which a sweep is due. -/
  nextSweep : Nat

namespace MemoryStore

def sweepInterval : Duration := Duration.ofSecs 60

/-- The largest number of milliseconds that the store counts to. -/
def maxMillis : Nat := maxWord 64

def new (now : Instant) : MemoryStore := ⟨Table.empty, now, sweepInterval.wholeMillis⟩

def live? (s : MemoryStore) (now : Instant) (key : String) : Option Entry :=
  (s.entries.find? key).filter fun e ↦ e.isLive now

/-- The number of live keys. -/
def size (s : MemoryStore) (now : Instant) : Nat := s.entries.count fun _ e ↦ e.isLive now

def isEmpty (s : MemoryStore) (now : Instant) : Bool := s.size now == 0

def contains (s : MemoryStore) (now : Instant) (key : String) : Bool := (s.live? now key).isSome

/-! ## Sweeping -/

/-- Drop the expired entries. -/
def swept (s : MemoryStore) (now : Instant) : MemoryStore :=
  { s with entries := s.entries.filter fun _ e ↦ e.isLive now }

/-- Drop the expired entries and say how many there were. -/
def purgeExpired (s : MemoryStore) (now : Instant) : Nat × MemoryStore :=
  (s.entries.size - (s.swept now).entries.size, s.swept now)

/-- The milliseconds since the creation. -/
def elapsed (s : MemoryStore) (now : Instant) : Nat :=
  min (Duration.wholeMillis (now - s.created)) maxMillis

/-- Sweep if a sweep is due, and say when the next one will be. -/
def sweepIfDue (s : MemoryStore) (now : Instant) : MemoryStore :=
  if s.elapsed now < s.nextSweep then s
  else
    { s.swept now with
      nextSweep := min (s.elapsed now + sweepInterval.wholeMillis) maxMillis }

/-! ## Counters -/

/-- The entry of a counter after an increment: a key that is absent or no counter starts anew. -/
def counted (before : Option Entry) (now : Instant) (window : Duration) (policy : ExpiryPolicy) :
    Nat × Entry :=
  match before with
  | some ⟨.counter n, expires⟩ =>
    (n + 1, ⟨.counter (n + 1), if policy = .rolling then now + window else expires⟩)
  | _ => (1, ⟨.counter 1, now + window⟩)

def increment (s : MemoryStore) (now : Instant) (key : String) (window : Duration)
    (policy : ExpiryPolicy) : Nat × MemoryStore :=
  let (count, entry) := counted (s.live? now key) now window policy
  (count, sweepIfDue { s with entries := s.entries.insert key entry } now)

/-- What `counted` is on a clock with a last instant: a counter that goes on under the fixed policy
keeps its end, and any other asks the clock for one. -/
def counted? (last : Instant) (before : Option Entry) (now : Instant) (window : Duration)
    (policy : ExpiryPolicy) : Option (Nat × Entry) :=
  match before, policy with
  | some ⟨.counter n, expires⟩, .fixed => some (n + 1, ⟨.counter (n + 1), expires⟩)
  | some ⟨.counter n, _⟩, .rolling =>
    (now.plus? window last).map fun t ↦ (n + 1, ⟨.counter (n + 1), t⟩)
  | _, _ => (now.plus? window last).map fun t ↦ (1, ⟨.counter 1, t⟩)

def increment? (last : Instant) (s : MemoryStore) (now : Instant) (key : String)
    (window : Duration) (policy : ExpiryPolicy) : Option (Nat × MemoryStore) :=
  (counted? last (s.live? now key) now window policy).map fun (count, entry) ↦
    (count, sweepIfDue { s with entries := s.entries.insert key entry } now)

def ttl (s : MemoryStore) (now : Instant) (key : String) : Option Duration :=
  (s.live? now key).map fun e ↦ e.expires - now

/-! ## Values -/

/-- The octets of a key. An expired entry is dropped. -/
def get (s : MemoryStore) (now : Instant) (key : String) : Option Bytes × MemoryStore :=
  match s.entries.find? key with
  | none => (none, s)
  | some e =>
    if e.isLive now then (some e.held.octets, s)
    else (none, { s with entries := s.entries.erase key })

/-- Give a key a value, whatever it held. -/
def set (s : MemoryStore) (now : Instant) (key : String) (value : Bytes) (ttl : Duration) :
    MemoryStore :=
  sweepIfDue { s with entries := s.entries.insert key ⟨.value value, now + ttl⟩ } now

def set? (last : Instant) (s : MemoryStore) (now : Instant) (key : String) (value : Bytes)
    (ttl : Duration) : Option MemoryStore :=
  (now.plus? ttl last).map fun t ↦
    sweepIfDue { s with entries := s.entries.insert key ⟨.value value, t⟩ } now

/-- Delete the keys that match a pattern and count the live ones among them. -/
def deleteByPattern (s : MemoryStore) (now : Instant) (pattern : String) : Nat × MemoryStore :=
  (s.entries.count fun key e ↦ Glob.isMatch pattern key && e.isLive now,
    { s with entries := s.entries.filter fun key _ ↦ !Glob.isMatch pattern key })

/-! ## As a store -/

instance : CounterStore MemoryStore where
  increment now key window policy s :=
    let (count, s) := s.increment now key window policy
    (.ok count, s)
  ttl now key s := (.ok (s.ttl now key), s)

instance : CacheStore MemoryStore where
  get now key s :=
    let (value, s) := s.get now key
    (.ok value, s)
  set now key value ttl s := (.ok (), s.set now key value ttl)
  deleteByPattern now pattern s :=
    let (deleted, s) := s.deleteByPattern now pattern
    (.ok deleted, s)
  ping _ s := (.ok (), s)

end MemoryStore

end Gatehouse
