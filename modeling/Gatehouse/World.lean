import Gatehouse.Journal
import Gatehouse.Token

/-!
# Running

Serving a request reads the clock, draws random numbers, calls the store and keeps the journal.
All four are in the state of a run; what does not change during a run, the validator of tokens,
the directory of users and the source of random numbers, is in its surroundings.

The operations below are the only ways to change the state, and each says in one line what it
does. A store call is noted whether it succeeds or fails.
-/

namespace Gatehouse

/-- The state of a run with a store whose state is a `σ`. -/
structure World (σ : Type) where
  store : σ
  now : Instant
  /-- How many random numbers have been drawn. -/
  drawn : Nat
  journal : Journal

/-- What a run finds and does not change. -/
structure Surroundings where
  /-- What a token claims, if it is accepted at an instant. -/
  validate : Instant → String → Except TokenError Claims
  /-- The user with an id. -/
  findUser : String → Except LookupError User
  /-- The random numbers. -/
  random : Nat → Nat

/-- A computation that runs with a store. -/
abbrev Run (σ α : Type) := StateM (World σ) α

namespace World

variable {σ : Type}

def start (store : σ) (now : Instant) : World σ := ⟨store, now, 0, []⟩

end World

namespace Run

variable {σ α : Type}

def note (n : Note) : Run σ Unit := fun w ↦ ((), { w with journal := w.journal ++ [n] })

def log (e : Event) : Run σ Unit := note (.event e)

def count (m : Metric) : Run σ Unit := note (.metric m)

def now : Run σ Instant := fun w ↦ (w.now, w)

def advance (d : Duration) : Run σ Unit := fun w ↦ ((), { w with now := w.now + d })

def draw (around : Surroundings) : Run σ Nat := fun w ↦
  (around.random w.drawn, { w with drawn := w.drawn + 1 })

/-! ## Calling the store -/

/-- Have the store do what it was called for. -/
def perform (access : Instant → Access σ α) : Run σ (Except StoreError α) := fun w ↦
  let (answer, store) := access w.now w.store
  (answer, { w with store })

def call (op : StoreOp) (subject : String) (access : Instant → Access σ α) :
    Run σ (Except StoreError α) := fun w ↦
  let (answer, store) := access w.now w.store
  (answer, { w with store, journal := w.journal ++ [.call ⟨op, subject⟩] })

theorem call_eq (op : StoreOp) (subject : String) (access : Instant → Access σ α) :
    call op subject access = note (.call ⟨op, subject⟩) >>= fun _ ↦ perform access := rfl

def increment [CounterStore σ] (key : String) (window : Duration) (policy : ExpiryPolicy) :
    Run σ (Except StoreError Nat) :=
  call .increment key fun now ↦ CounterStore.increment now key window policy

def ttl [CounterStore σ] (key : String) : Run σ (Except StoreError (Option Duration)) :=
  call .ttl key fun now ↦ CounterStore.ttl now key

def get [CacheStore σ] (key : String) : Run σ (Except StoreError (Option Bytes)) :=
  call .get key fun now ↦ CacheStore.get now key

def set [CacheStore σ] (key : String) (value : Bytes) (ttl : Duration) :
    Run σ (Except StoreError Unit) :=
  call .set key fun now ↦ CacheStore.set now key value ttl

def deleteByPattern [CacheStore σ] (pattern : String) : Run σ (Except StoreError Nat) :=
  call .deleteByPattern pattern fun now ↦ CacheStore.deleteByPattern now pattern

def ping [CacheStore σ] : Run σ (Except StoreError Unit) :=
  call .ping "" fun now ↦ CacheStore.ping now

end Run

end Gatehouse
