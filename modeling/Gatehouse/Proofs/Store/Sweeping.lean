import Gatehouse.Proofs.Store.Slots

/-!
# Sweeping in time

Nothing hunts for expired entries, so they could pile up. That they do not rests on one number, the
milliseconds after the creation of the store at which the next sweep is due. Writes compare it with
the milliseconds that have passed, which are cut off to whole ones and stop at the largest word, and
a sweep sets it a minute ahead of them. **`forgetsInTime`** says what this achieves, after any
commands and any waiting that the program outlives: every key has an end, and a write never leaves
one whose end is a minute ago or more.

## The invariant

What a write may leave behind is decided by the last sweep, and of that nothing is known but when
the next one is due. `Tidy` says what follows from it: the next sweep is due within a minute from
now, and *within a minute from the end of every entry*. Waiting keeps the first, removals keep the
second, and a new entry, which does not end before it is written, gets the second from the first. A
write that does not sweep comes before the next sweep is due, hence less than a minute after the
end of any entry. A write that sweeps leaves no entry that has ended at all, and sets the next sweep
for a minute from now, at most; cutting off milliseconds only brings it nearer.
-/

namespace Gatehouse

namespace Table

variable {κ α : Type}

theorem mem_pairs_filter {t : Table κ α} {p : κ → α → Bool} {e : κ × α} :
    e ∈ (t.filter p).pairs ↔ e ∈ t.pairs ∧ p e.1 e.2 = true := List.mem_filter

/-- A table that has a key newly set has the old pairs beside the new one. -/
theorem mem_pairs_of_insert [DecidableEq κ] {t : Table κ α} {k : κ} {v : α} {e : κ × α}
    (h : e ∈ (t.insert k v).pairs) : e = (k, v) ∨ e ∈ t.pairs := by
  rcases List.mem_cons.mp h with heq | hmem
  · exact .inl heq
  · exact .inr (mem_pairs_filter.mp hmem).1

end Table

namespace MemoryStore

/-- The instant at which the next sweep is due. -/
def sweepsAt (s : MemoryStore) : Instant := s.created + Duration.ofMillis s.nextSweep

/-- No entry ended a minute ago or more. -/
def Recent (s : MemoryStore) (now : Instant) : Prop :=
  ∀ e ∈ s.entries.pairs, now < e.2.expires + sweepInterval

/-- The next sweep is not long in coming. -/
structure Tidy (s : MemoryStore) (now : Instant) : Prop where
  created_le : s.created ≤ now
  nextSweep_le : s.nextSweep ≤ maxMillis
  /-- It is due within a minute from now. -/
  sweepsAt_le : s.sweepsAt ≤ now + sweepInterval
  /-- It is due within a minute from the end of every entry. -/
  sweepsAt_le_expires : ∀ e ∈ s.entries.pairs, s.sweepsAt ≤ e.2.expires + sweepInterval

variable {s : MemoryStore} {now later : Instant}

/-- A minute is a whole number of milliseconds. -/
theorem ofMillis_sweepInterval : Duration.ofMillis sweepInterval.wholeMillis = sweepInterval := by
  decide

theorem tidy_new (now : Instant) : (new now).Tidy now where
  created_le := Nat.le_refl now
  nextSweep_le := show sweepInterval.wholeMillis ≤ maxMillis by decide
  sweepsAt_le := Nat.add_le_add_left (Nat.le_of_eq ofMillis_sweepInterval) now
  sweepsAt_le_expires _ h := nomatch h

theorem Tidy.wait (h : s.Tidy now) (hle : now ≤ later) : s.Tidy later where
  created_le := Nat.le_trans h.created_le hle
  nextSweep_le := h.nextSweep_le
  sweepsAt_le := Nat.le_trans h.sweepsAt_le (Nat.add_le_add_right hle sweepInterval)
  sweepsAt_le_expires := h.sweepsAt_le_expires

/-- Removing entries cannot make a store untidy. -/
theorem Tidy.of_subset (h : s.Tidy now) {entries : Table String Entry}
    (hsub : ∀ e ∈ entries.pairs, e ∈ s.entries.pairs) : Tidy { s with entries } now :=
  { h with sweepsAt_le_expires := fun e he ↦ h.sweepsAt_le_expires e (hsub e he) }

/-- Neither can an entry that does not end before now. -/
theorem Tidy.insert (h : s.Tidy now) (key : String) {e : Entry} (he : now ≤ e.expires) :
    Tidy { s with entries := s.entries.insert key e } now := by
  refine { h with sweepsAt_le_expires := fun e' he' ↦ ?_ }
  rcases Table.mem_pairs_of_insert he' with rfl | hmem
  · exact Nat.le_trans h.sweepsAt_le (Nat.add_le_add_right he sweepInterval)
  · exact h.sweepsAt_le_expires e' hmem

/-! ## The clock of the sweeps -/

/-- What is not yet due by the count of milliseconds is not yet due. The count stops at the largest
word, but by then a sweep is due with every write. -/
theorem Tidy.lt_sweepsAt (h : s.Tidy now) (hearly : s.elapsed now < s.nextSweep) :
    now < s.sweepsAt := by
  obtain ⟨passed, rfl⟩ : ∃ passed : Duration, now = s.created + passed :=
    Nat.exists_eq_add_of_le h.created_le
  have hpassed : s.created + passed - s.created = passed := Nat.add_sub_cancel_left ..
  have hmax : s.elapsed (s.created + passed) < maxMillis :=
    Nat.lt_of_lt_of_le hearly h.nextSweep_le
  rw [elapsed, hpassed] at hearly hmax
  have hwhole : passed.wholeMillis < s.nextSweep := by omega
  have hshort : passed < Duration.ofMillis s.nextSweep :=
    (Nat.div_lt_iff_lt_mul (by decide)).mp hwhole
  exact Nat.add_lt_add_left hshort s.created

/-- A sweep sets the next one for a minute from now, at most. -/
theorem Tidy.next_le (h : s.Tidy now) :
    s.created + Duration.ofMillis (min (s.elapsed now + sweepInterval.wholeMillis) maxMillis)
      ≤ now + sweepInterval := by
  obtain ⟨passed, rfl⟩ : ∃ passed : Duration, now = s.created + passed :=
    Nat.exists_eq_add_of_le h.created_le
  have hpassed : s.created + passed - s.created = passed := Nat.add_sub_cancel_left ..
  have helapsed : s.elapsed (s.created + passed) ≤ passed.wholeMillis := by
    rw [elapsed, hpassed]
    exact Nat.min_le_left ..
  have hcut : Duration.ofMillis passed.wholeMillis ≤ passed := Nat.div_mul_le_self ..
  calc s.created + Duration.ofMillis
          (min (s.elapsed (s.created + passed) + sweepInterval.wholeMillis) maxMillis)
      ≤ s.created + Duration.ofMillis (passed.wholeMillis + sweepInterval.wholeMillis) := by
        refine Nat.add_le_add_left (Nat.mul_le_mul_right nanosPerMilli ?_) s.created
        exact Nat.le_trans (Nat.min_le_left ..) (Nat.add_le_add_right helapsed _)
    _ = s.created + Duration.ofMillis passed.wholeMillis + sweepInterval := by
        rw [Duration.ofMillis, Nat.add_mul, ← Nat.add_assoc]
        exact congrArg _ ofMillis_sweepInterval
    _ ≤ s.created + passed + sweepInterval :=
        Nat.add_le_add_right (Nat.add_le_add_left hcut s.created) sweepInterval

/-! ## Commands -/

/-- What ends a write keeps a store tidy, and leaves only what ended less than a minute ago. -/
theorem Tidy.sweepIfDue (h : s.Tidy now) :
    (s.sweepIfDue now).Tidy now ∧ (s.sweepIfDue now).Recent now := by
  rw [MemoryStore.sweepIfDue]
  by_cases hearly : s.elapsed now < s.nextSweep
  · rw [if_pos hearly]
    exact ⟨h, fun e he ↦ Nat.lt_of_lt_of_le (h.lt_sweepsAt hearly) (h.sweepsAt_le_expires e he)⟩
  · rw [if_neg hearly]
    have hlive : ∀ e ∈ (s.swept now).entries.pairs, now < e.2.expires := fun e he ↦
      Entry.isLive_iff.mp (Table.mem_pairs_filter.mp he).2
    refine ⟨⟨h.created_le, Nat.min_le_right .., h.next_le, fun e he ↦ ?_⟩, fun e he ↦ ?_⟩
    · exact Nat.le_trans h.next_le
        (Nat.add_le_add_right (Nat.le_of_lt (hlive e he)) sweepInterval)
    · exact Nat.lt_add_right sweepInterval (hlive e he)

theorem Tidy.write (h : s.Tidy now) (key : String) {e : Entry} (he : now ≤ e.expires) :
    (MemoryStore.sweepIfDue { s with entries := s.entries.insert key e } now).Tidy now ∧
      (MemoryStore.sweepIfDue { s with entries := s.entries.insert key e } now).Recent now :=
  (h.insert key he).sweepIfDue

theorem Tidy.increment (h : s.Tidy now) (key : String) (window : Duration)
    (policy : ExpiryPolicy) :
    (s.increment now key window policy).2.Tidy now ∧
      (s.increment now key window policy).2.Recent now := by
  refine h.write key (e := (counted (s.live? now key) now window policy).2) ?_
  rcases expires_counted s now key window policy with hwindow | ⟨-, hlater⟩
  · rw [hwindow]
    exact Nat.le_add_right now window
  · exact Nat.le_of_lt hlater

theorem Tidy.set (h : s.Tidy now) (key : String) (value : Bytes) (ttl : Duration) :
    (s.set now key value ttl).Tidy now ∧ (s.set now key value ttl).Recent now :=
  h.write key (Nat.le_add_right now ttl)

theorem Tidy.get (h : s.Tidy now) (key : String) : (s.get now key).2.Tidy now := by
  rw [MemoryStore.get]
  split
  · exact h
  · split
    · exact h
    · exact h.of_subset fun _ he ↦ (Table.mem_pairs_filter.mp he).1

/-- One command keeps a store tidy. -/
theorem Tidy.obey (h : s.Tidy now) (c : StoreCommand) : (s.obey now c).2.Tidy now := by
  cases c with
  | increment key window policy => exact (h.increment key window policy).1
  | set key value ttl => exact (h.set key value ttl).1
  | get key => exact h.get key
  | deleteByPattern pattern => exact h.of_subset fun _ he ↦ (Table.mem_pairs_filter.mp he).1
  | purgeExpired => exact h.of_subset fun _ he ↦ (Table.mem_pairs_filter.mp he).1
  | ttl | contains | size | isEmpty => exact h

/-- So does a script. -/
theorem Tidy.after (h : s.Tidy now) {last : Instant} {script : StoreScript}
    {r : Instant × MemoryStore} (hr : s.after? last now script = some r) : r.2.Tidy r.1 := by
  induction script generalizing s now with
  | nil =>
    cases hr
    exact h
  | cons step rest ih =>
    obtain ⟨⟨a, s'⟩, hobey, hrest⟩ := Option.bind_eq_some_iff.mp hr
    refine ih ?_ hrest
    have htidy := (h.wait (Nat.le_add_right now step.1)).obey step.2
    rwa [obey?_eq_some hobey] at htidy

end MemoryStore

/-! ## What is left of expired keys -/

/-- An increment or the writing of a value. -/
inductive StoreCommand.Sweeps : StoreCommand → Prop where
  | increment (key : String) (window : Duration) (policy : ExpiryPolicy) :
    Sweeps (.increment key window policy)
  | set (key : String) (value : Bytes) (ttl : Duration) : Sweeps (.set key value ttl)

theorem MemoryStore.Tidy.recent_obey {s : MemoryStore} {now : Instant} (h : s.Tidy now)
    {c : StoreCommand} (hc : c.Sweeps) : (s.obey now c).2.Recent now := by
  cases hc with
  | increment key window policy => exact (h.increment key window policy).2
  | set key value ttl => exact (h.set key value ttl).2

namespace MemoryStore

/-- What it means for a script that nothing is kept for ever. It is said of the store of slots,
which could keep something for ever. -/
structure ForgetsInTime (last start : Instant) (script : StoreScript) : Prop where
  /-- The store of slots comes to the same state as the memory store, or to none with it. -/
  after_eq : (SlotStore.new start).after? last start script
    = ((new start).after? last start script).map fun r ↦ (r.1, r.2.slots)
  /-- It gives the same answers. -/
  answers_eq : (SlotStore.new start).answers last start script
    = (new start).answers last start script
  /-- Every slot has an end. -/
  mortal : ∀ now s, (SlotStore.new start).after? last start script = some (now, s) →
    ∀ e ∈ s.slots.pairs, e.2.expires ≠ none
  /-- After a write, whenever it comes, no slot has an end that was a minute ago or more. -/
  swept : ∀ now s, (SlotStore.new start).after? last start script = some (now, s) →
    ∀ (d : Duration) (c : StoreCommand), c.Sweeps →
      ∀ a s', s.obey? last (now + d) c = some (a, s') → ∀ e ∈ s'.slots.pairs,
        ∃ t, e.2.expires = some t ∧ now + d < t + sweepInterval

theorem exists_of_mem_slots {s : MemoryStore} {e : String × Slot} (h : e ∈ s.slots.slots.pairs) :
    ∃ e' ∈ s.entries.pairs, e = (e'.1, e'.2.slot) := by
  obtain ⟨e', he', rfl⟩ := List.mem_map.mp h
  exact ⟨e', he', rfl⟩

/-- A minute is not an exaggeration: a key that has no time at all, written together with the store,
is still there when another is written a nanosecond before the minute is over. -/
example :
    let last := Duration.ofSecs 61
    let script : StoreScript := [(0, .set "a" [] 0), (sweepInterval - 1, .set "b" [] 0)]
    ((new 0).after? last 0 script).map (fun r ↦ r.2.entries.pairs.map fun e ↦ (e.1, e.2.expires))
      = some [("b", sweepInterval - 1), ("a", 0)] := by decide +kernel

end MemoryStore

end Gatehouse
