import Gatehouse.Store.Basic

/-!
# Stores that fail

Failures of a store cannot be brought about on purpose, so the behaviour under them is described
with stores made for it. A faulty store fails the operations that it is told to fail and hands all
others on. A scripted store has no state of its own: what it answers is written down beforehand.
-/

namespace Gatehouse

/-! ## Faulty stores -/

/-- A store some of whose operations fail. -/
structure Faulty (σ : Type) where
  inner : σ
  failing : List StoreOp
  reason : String

namespace Faulty

variable {σ α : Type}

/-- Fail, or operate on the store inside. -/
def guard (op : StoreOp) (access : Access σ α) : Access (Faulty σ) α := fun s ↦
  if op ∈ s.failing then (.error (.unavailable s.reason), s)
  else
    let (answer, inner) := access s.inner
    (answer, { s with inner })

instance [CounterStore σ] : CounterStore (Faulty σ) where
  increment now key window policy := guard .increment (CounterStore.increment now key window policy)
  ttl now key := guard .ttl (CounterStore.ttl now key)

instance [CacheStore σ] : CacheStore (Faulty σ) where
  get now key := guard .get (CacheStore.get now key)
  set now key value ttl := guard .set (CacheStore.set now key value ttl)
  deleteByPattern now pattern := guard .deleteByPattern (CacheStore.deleteByPattern now pattern)
  ping now := guard .ping (CacheStore.ping now)

end Faulty

/-! ## Scripted counters -/

/-- What a counter store answers to one increment and to the question for the time left. -/
structure CountAnswer where
  count : Except StoreError Nat
  ttl : Except StoreError (Option Duration)

/-- A counter store that gives its answers one after the other. An answer is used up by the next
increment. -/
structure Scripted where
  present : CountAnswer
  later : List CountAnswer

namespace Scripted

/-- The answer of a store whose script has come to its end. -/
def exhausted : CountAnswer := ⟨.error (.unavailable "down"), .ok none⟩

/-- The store that gives the answers in this order. -/
def ofList (answers : List CountAnswer) : Scripted := ⟨exhausted, answers⟩

/-- Go on to the next answer. -/
def next (s : Scripted) : Scripted :=
  match s.later with
  | [] => ⟨exhausted, []⟩
  | a :: rest => ⟨a, rest⟩

instance : CounterStore Scripted where
  increment _ _ _ _ s := (s.next.present.count, s.next)
  ttl _ _ s := (s.present.ttl, s)

end Scripted

end Gatehouse
