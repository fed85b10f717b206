import Gatehouse.World

/-!
# Keeping what is written

What was written to a store, and how often, cannot be read off the store afterwards: a later write
covers an earlier one, and entries expire. A *kept* store is any store with a list beside it to
which every write is added, successful or not. It answers as the store inside does, and after a run
it shows what the run has written.

## Runs that write the same in every state

Whether a write succeeds depends on the store, but whether there is a write often does not.
`Run.Commits` says of a run that its answer, its writes and the number of results it counts are the
same whatever state it starts in. Such runs compose: the writes of one are followed by the writes
of the next.
-/

namespace Gatehouse

structure Written where
  key : String
  value : Bytes
  ttl : Duration
  deriving DecidableEq, Repr

/-- A store with a list of what was written to it. -/
structure Kept (σ : Type) where
  inner : σ
  writes : List Written

namespace Kept

variable {σ α : Type}

def within (access : Access σ α) : Access (Kept σ) α := fun s ↦
  let (answer, inner) := access s.inner
  (answer, { s with inner })

instance [CounterStore σ] : CounterStore (Kept σ) where
  increment now key window policy := within (CounterStore.increment now key window policy)
  ttl now key := within (CounterStore.ttl now key)

instance [CacheStore σ] : CacheStore (Kept σ) where
  get now key := within (CacheStore.get now key)
  set now key value ttl s :=
    let (answer, s) := within (CacheStore.set now key value ttl) s
    (answer, { s with writes := s.writes ++ [⟨key, value, ttl⟩] })
  deleteByPattern now pattern := within (CacheStore.deleteByPattern now pattern)
  ping now := within (CacheStore.ping now)

end Kept

/-! ## Results of storing -/

namespace World

variable {σ : Type}

/-- How often an attempt to store a response has ended with the given result. -/
def results (w : World σ) (r : StoreResult) : Nat := w.journal.count (.metric (.cacheStore r))

/-- How often it was attempted to write a response to the store. -/
def attempts (w : World σ) : Nat := w.results .stored + w.results .error

end World

/-! ## Runs -/

namespace Run

variable {σ α β : Type}

/-- Whatever state it starts in, the run gives the answer, writes the writes, counts a result for
each of them, and counts so many more that were skipped. -/
structure Commits (r : Run (Kept σ) α) (answer : α) (writes : List Written) (skips : Nat) :
    Prop where
  answer_eq : ∀ w, (r w).1 = answer
  writes_eq : ∀ w, (r w).2.store.writes = w.store.writes ++ writes
  attempts_eq : ∀ w, (r w).2.attempts = w.attempts + writes.length
  skipped_eq : ∀ w, (r w).2.results .skipped = w.results .skipped + skips

theorem commits_pure (a : α) : (pure a : Run (Kept σ) α).Commits a [] 0 where
  answer_eq _ := rfl
  writes_eq w := (List.append_nil w.store.writes).symm
  attempts_eq _ := rfl
  skipped_eq _ := rfl

theorem Commits.bind {r : Run (Kept σ) α} {f : α → Run (Kept σ) β} {a : α} {b : β}
    {writes writes' : List Written} {skips skips' : Nat} (hr : r.Commits a writes skips)
    (hf : (f a).Commits b writes' skips') :
    (r >>= f).Commits b (writes ++ writes') (skips + skips') := by
  have hrun : ∀ w, (r >>= f) w = f a (r w).2 := fun w ↦ by
    rw [← hr.answer_eq w]
    rfl
  refine ⟨fun w ↦ ?_, fun w ↦ ?_, fun w ↦ ?_, fun w ↦ ?_⟩
  · rw [hrun, hf.answer_eq]
  · rw [hrun, hf.writes_eq, hr.writes_eq, List.append_assoc]
  · rw [hrun, hf.attempts_eq, hr.attempts_eq, List.length_append, Nat.add_assoc]
  · rw [hrun, hf.skipped_eq, hr.skipped_eq, Nat.add_assoc]

/-- What is made of an answer changes nothing else. -/
theorem Commits.bind_pure {r : Run (Kept σ) α} {a : α} {writes : List Written} {skips : Nat}
    (hr : r.Commits a writes skips) (g : α → β) :
    (r >>= fun x ↦ pure (g x)).Commits (g a) writes skips := by
  have h : (r >>= fun x ↦ pure (g x)).Commits (g a) (writes ++ []) (skips + 0) :=
    hr.bind (commits_pure (g a))
  rwa [List.append_nil, Nat.add_zero] at h

theorem commits_skip : (count (.cacheStore .skipped) : Run (Kept σ) Unit).Commits () [] 1 where
  answer_eq _ := rfl
  writes_eq w := (List.append_nil w.store.writes).symm
  attempts_eq w := by simp [count, note, World.attempts, World.results, List.count_append]
  skipped_eq w := by simp [count, note, World.results, List.count_append]

end Run

end Gatehouse
