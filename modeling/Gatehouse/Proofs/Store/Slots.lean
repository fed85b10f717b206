import Gatehouse.Proofs.Store.Ideal

/-!
# Entries without an end

In the memory store an entry cannot be written down without the instant of its expiry. Whether every
entry gets one is another question: a counter that is not there begins as an entry without an
expiry, is counted up, and is given its expiry only then, by a policy that leaves alone the expiry
it finds. The store below works like that. What it keeps is a *slot*, whose end is optional, and a
slot without an end would stay for ever: it is never expired, no sweep takes it, and it has no time
left that could be told.

**`slots_obey`** says that no command leaves such a slot: what the store of slots answers, and what
is in it afterwards, is what the memory store answers and what is in that, ends included.

There is one moment at which such a slot is in the table: after the count is raised and before the
end is noted. If the clock does not get as far as that end the program ends at this moment, and so
nobody ever finds the slot.
-/

namespace Gatehouse

/-! ## Tables with other values -/

namespace Table

variable {κ α β : Type}

theorem eq_of_pairs_eq {t u : Table κ α} (h : t.pairs = u.pairs) : t = u := by
  obtain ⟨pairs, _⟩ := t
  obtain ⟨pairs', _⟩ := u
  obtain rfl : pairs = pairs' := h
  rfl

/-- The same keys with other values. -/
def map (f : α → β) (t : Table κ α) : Table κ β where
  pairs := t.pairs.map fun e ↦ (e.1, f e.2)
  nodup := by
    rw [List.map_map]
    exact t.nodup

variable (f : α → β) (t : Table κ α)

theorem filter_map (p : κ → β → Bool) :
    (t.map f).filter p = (t.filter fun k v ↦ p k (f v)).map f :=
  eq_of_pairs_eq List.filter_map

theorem size_map : (t.map f).size = t.size := List.length_map _

theorem count_map (p : κ → β → Bool) : (t.map f).count p = t.count fun k v ↦ p k (f v) := by
  rw [count, filter_map, size_map]
  rfl

variable [DecidableEq κ]

theorem erase_map (k : κ) : (t.map f).erase k = (t.erase k).map f := filter_map f t _

theorem insert_map (k : κ) (v : α) : (t.map f).insert k (f v) = (t.insert k v).map f := by
  refine eq_of_pairs_eq ?_
  have herase : ((t.map f).erase k).pairs = ((t.erase k).map f).pairs := by rw [erase_map]
  exact congrArg ((k, f v) :: ·) herase

theorem find?_map (k : κ) : (t.map f).find? k = (t.find? k).map f := by
  apply Option.ext
  intro v
  rw [Option.map_eq_some_iff, find?_eq_some_iff]
  simp only [map, List.mem_map, find?_eq_some_iff]
  constructor
  · rintro ⟨⟨k', u⟩, hmem, heq⟩
    obtain ⟨rfl, rfl⟩ : k' = k ∧ f u = v := Prod.mk.inj heq
    exact ⟨u, hmem, rfl⟩
  · rintro ⟨u, hmem, rfl⟩
    exact ⟨(k, u), hmem, rfl⟩

end Table

/-! ## Slots -/

/-- What a key holds, and until when, if there is an end to it. -/
structure Slot where
  held : Held
  expires : Option Instant
  deriving DecidableEq, Repr

namespace Slot

/-- Whether there is an end and it has come. -/
def isExpired (e : Slot) (now : Instant) : Bool := e.expires.any fun t ↦ t ≤ now

/-- A counter that has counted nothing and has no end. -/
def fresh : Slot := ⟨.counter 0, none⟩

/-- The slot to count in. One that is absent, expired or no counter gives way to a fresh one. -/
def toCount (now : Instant) : Option Slot → Slot
  | none => fresh
  | some e =>
    match e.held with
    | .counter _ => if e.isExpired now then fresh else e
    | .value _ => fresh

/-- Count one more. The slot to count in is a counter. -/
def raised (e : Slot) : Nat × Slot :=
  match e.held with
  | .counter n => (n + 1, { e with held := .counter (n + 1) })
  | .value _ => (1, e)

/-- Give a slot its end: the rolling policy does it always, the fixed one if there is none. Only
then is the clock asked for an instant ahead, and may not have it. -/
def dated? (e : Slot) (policy : ExpiryPolicy) (now : Instant) (window : Duration)
    (last : Instant) : Option Slot :=
  match policy, e.expires with
  | .fixed, some _ => some e
  | _, _ => (now.plus? window last).map fun t ↦ { e with expires := some t }

end Slot

/-- The slot of an entry. -/
def Entry.slot (e : Entry) : Slot := ⟨e.held, some e.expires⟩

namespace Entry

variable (e : Entry) (now : Instant)

theorem isExpired_slot : e.slot.isExpired now = !e.isLive now := by
  have hnot : decide (e.expires ≤ now) = !decide (now < e.expires) := by
    rw [← decide_not]
    exact decide_eq_decide.mpr Nat.not_lt.symm
  exact hnot

/-- The slot to count in is the entry that is counted on, or a fresh one. -/
theorem toCount_map_slot (before : Option Entry) :
    Slot.toCount now (before.map slot)
      = match before.filter fun e ↦ e.isLive now with
        | some ⟨.counter n, expires⟩ => slot ⟨.counter n, expires⟩
        | _ => Slot.fresh := by
  rcases before with _ | ⟨held, expires⟩
  · rfl
  · by_cases hlive : now < expires
    · have hexpired : (slot ⟨held, expires⟩).isExpired now = false := by
        rw [isExpired_slot, isLive_iff.mpr hlive]
        rfl
      rw [filter_isLive_of_lt hlive]
      cases held with
      | counter n => exact if_neg (Bool.not_eq_true _ ▸ hexpired)
      | value b => rfl
    · have hover : expires ≤ now := Nat.le_of_not_lt hlive
      have hexpired : (slot ⟨held, expires⟩).isExpired now = true := decide_eq_true hover
      rw [filter_isLive_of_le hover]
      cases held with
      | counter n => exact if_pos hexpired
      | value b => rfl

/-- Counting in a slot is counting in an entry: a fresh slot gets its end under either policy, and
so it is as good as an entry that begins a window anew. -/
theorem dated?_raised_toCount (last : Instant) (before : Option Entry) (window : Duration)
    (policy : ExpiryPolicy) :
    let raised := (Slot.toCount now (before.map slot)).raised
    (raised.2.dated? policy now window last).map (fun e ↦ (raised.1, e))
      = (MemoryStore.counted? last (before.filter fun e ↦ e.isLive now) now window policy).map
          fun r ↦ (r.1, r.2.slot) := by
  rw [toCount_map_slot]
  generalize (before.filter fun e ↦ e.isLive now) = found
  rcases found with _ | ⟨n | b, expires⟩ <;> cases policy <;>
    simp [Slot.raised, Slot.dated?, Slot.fresh, MemoryStore.counted?, slot, Function.comp_def]

end Entry

/-! ## The store of slots -/

/-- A store in memory whose slots need not have an end. -/
structure SlotStore where
  slots : Table String Slot
  created : Instant
  nextSweep : Nat

namespace SlotStore

open MemoryStore (sweepInterval maxMillis)

def new (now : Instant) : SlotStore := ⟨Table.empty, now, sweepInterval.wholeMillis⟩

variable (last : Instant) (s : SlotStore) (now : Instant)

def swept : SlotStore := { s with slots := s.slots.filter fun _ e ↦ !e.isExpired now }

def elapsed : Nat := min (Duration.wholeMillis (now - s.created)) maxMillis

def sweepIfDue : SlotStore :=
  if s.elapsed now < s.nextSweep then s
  else
    { s.swept now with
      nextSweep := min (s.elapsed now + sweepInterval.wholeMillis) maxMillis }

def size : Nat := s.slots.count fun _ e ↦ !e.isExpired now

def increment? (key : String) (window : Duration) (policy : ExpiryPolicy) :
    Option (Nat × SlotStore) :=
  let (n, e) := (Slot.toCount now (s.slots.find? key)).raised
  (e.dated? policy now window last).map fun e ↦
    (n, sweepIfDue { s with slots := s.slots.insert key e } now)

/-- The time that a key has left. A slot without an end has none to tell. -/
def ttl (key : String) : Option Duration :=
  (s.slots.find? key).bind fun e ↦ (e.expires.filter fun t ↦ now < t).map fun t ↦ t - now

def get (key : String) : Option Bytes × SlotStore :=
  match s.slots.find? key with
  | none => (none, s)
  | some e =>
    if e.isExpired now then (none, { s with slots := s.slots.erase key })
    else (some e.held.octets, s)

def set? (key : String) (value : Bytes) (ttl : Duration) : Option SlotStore :=
  (now.plus? ttl last).map fun t ↦
    sweepIfDue { s with slots := s.slots.insert key ⟨.value value, some t⟩ } now

def deleteByPattern (pattern : String) : Nat × SlotStore :=
  (s.slots.count fun key e ↦ Glob.isMatch pattern key && !e.isExpired now,
    { s with slots := s.slots.filter fun key _ ↦ !Glob.isMatch pattern key })

def obey? : StoreCommand → Option (StoreAnswer × SlotStore)
  | .increment key window policy =>
    (s.increment? last now key window policy).map fun (n, s) ↦ (.count (.ok n), s)
  | .ttl key => some (.left (.ok (s.ttl now key)), s)
  | .get key =>
    let (b, s) := s.get now key
    some (.octets (.ok b), s)
  | .set key value ttl => (s.set? last now key value ttl).map fun s ↦ (.written (.ok ()), s)
  | .deleteByPattern pattern =>
    let (n, s) := s.deleteByPattern now pattern
    some (.deleted (.ok n), s)
  | .contains key => some (.contains ((s.slots.find? key).any fun e ↦ !e.isExpired now), s)
  | .size => some (.size (s.size now), s)
  | .isEmpty => some (.isEmpty (s.size now == 0), s)
  | .purgeExpired => some (.purged (s.slots.size - (s.swept now).slots.size), s.swept now)

def answers (last : Instant) (s : SlotStore) (now : Instant) : StoreScript → List StoreAnswer
  | [] => []
  | (d, c) :: rest =>
    match s.obey? last (now + d) c with
    | none => []
    | some (a, s) => a :: s.answers last (now + d) rest

/-- The instant at which a script ends, and the store then, unless the program ends before. -/
def after? (last : Instant) (s : SlotStore) (now : Instant) :
    StoreScript → Option (Instant × SlotStore)
  | [] => some (now, s)
  | (d, c) :: rest => (s.obey? last (now + d) c).bind fun r ↦ r.2.after? last (now + d) rest

end SlotStore

/-! ## The memory store as a store of slots -/

namespace MemoryStore

/-- The instant at which a script ends, and the store then, unless the program ends before. -/
def after? (last : Instant) (s : MemoryStore) (now : Instant) :
    StoreScript → Option (Instant × MemoryStore)
  | [] => some (now, s)
  | (d, c) :: rest => (s.obey? last (now + d) c).bind fun r ↦ r.2.after? last (now + d) rest

/-- A memory store, its entries taken for slots. -/
def slots (s : MemoryStore) : SlotStore := ⟨s.entries.map Entry.slot, s.created, s.nextSweep⟩

variable (last : Instant) (s : MemoryStore) (now : Instant) (key : String)

theorem slots_new : (new now).slots = SlotStore.new now := rfl

theorem find?_slots : s.slots.slots.find? key = (s.entries.find? key).map Entry.slot :=
  Table.find?_map Entry.slot s.entries key

theorem slots_swept : s.slots.swept now = (s.swept now).slots := by
  have hslots : s.slots.slots.filter (fun _ e ↦ !e.isExpired now)
      = (s.entries.filter fun _ e ↦ e.isLive now).map Entry.slot := by
    rw [slots, Table.filter_map]
    simp only [Entry.isExpired_slot, Bool.not_not]
  rw [SlotStore.swept, hslots]
  rfl

theorem slots_sweepIfDue : s.slots.sweepIfDue now = (s.sweepIfDue now).slots := by
  have helapsed : s.slots.elapsed now = s.elapsed now := rfl
  have hdue : s.slots.nextSweep = s.nextSweep := rfl
  rw [SlotStore.sweepIfDue, sweepIfDue, helapsed, hdue, slots_swept]
  split <;> rfl

/-- A write that leaves the slot of an entry is the write of that entry. -/
theorem slots_write (e : Entry) :
    SlotStore.sweepIfDue { s.slots with slots := s.slots.slots.insert key e.slot } now
      = (sweepIfDue { s with entries := s.entries.insert key e } now).slots := by
  rw [← slots_sweepIfDue, slots, Table.insert_map]
  rfl

theorem slots_increment (window : Duration) (policy : ExpiryPolicy) :
    s.slots.increment? last now key window policy
      = (s.increment? last now key window policy).map fun r ↦ (r.1, r.2.slots) := by
  have hcounted := Entry.dated?_raised_toCount now last (s.entries.find? key) window policy
  rw [← find?_slots] at hcounted
  have hwrite := congrArg (Option.map fun r ↦ (r.1,
    SlotStore.sweepIfDue { s.slots with slots := s.slots.slots.insert key r.2 } now)) hcounted
  rw [Option.map_map, Option.map_map] at hwrite
  refine hwrite.trans ?_
  rw [increment?, Option.map_map]
  exact congrArg (Option.map · _) (funext fun r ↦ congrArg (r.1, ·) (slots_write s now key r.2))

theorem slots_ttl : s.slots.ttl now key = s.ttl now key := by
  rw [SlotStore.ttl, ttl, live?, find?_slots]
  rcases s.entries.find? key with _ | e
  · rfl
  · by_cases hlive : now < e.expires <;> simp [Entry.slot, Entry.isLive, Option.filter, hlive]

theorem slots_get : s.slots.get now key = ((s.get now key).1, (s.get now key).2.slots) := by
  rw [SlotStore.get, get, find?_slots]
  rcases s.entries.find? key with _ | e
  · rfl
  · simp only [Option.map_some, Entry.isExpired_slot]
    by_cases hlive : e.isLive now = true
    · simp only [hlive, Bool.not_true, Bool.false_eq_true, if_true, if_false]
      rfl
    · simp only [hlive, Bool.not_false, if_true, if_false, Bool.false_eq_true]
      exact congrArg (fun t ↦ (none, SlotStore.mk t s.created s.nextSweep))
        (Table.erase_map Entry.slot s.entries key)

theorem slots_set (value : Bytes) (ttl : Duration) :
    s.slots.set? last now key value ttl = (s.set? last now key value ttl).map slots := by
  rw [SlotStore.set?, set?, Option.map_map]
  exact congrArg (Option.map · _) (funext fun t ↦ slots_write s now key ⟨.value value, t⟩)

theorem slots_deleteByPattern (pattern : String) :
    s.slots.deleteByPattern now pattern
      = ((s.deleteByPattern now pattern).1, (s.deleteByPattern now pattern).2.slots) := by
  refine Prod.ext ?_ ?_
  · refine (Table.count_map Entry.slot s.entries _).trans ?_
    simp only [Entry.isExpired_slot, Bool.not_not]
    rfl
  · exact congrArg (fun t ↦ SlotStore.mk t s.created s.nextSweep)
      (Table.filter_map Entry.slot s.entries _)

theorem slots_contains :
    ((s.slots.slots.find? key).any fun e ↦ !e.isExpired now) = s.contains now key := by
  rw [find?_slots, contains, live?]
  rcases s.entries.find? key with _ | e
  · rfl
  · by_cases hlive : e.isLive now = true <;> simp [Entry.isExpired_slot, Option.filter, hlive]

theorem slots_size : s.slots.size now = s.size now := by
  refine (Table.count_map Entry.slot s.entries _).trans ?_
  simp only [Entry.isExpired_slot, Bool.not_not]
  rfl

theorem slots_purgeExpired :
    (s.slots.slots.size - (s.slots.swept now).slots.size, s.slots.swept now)
      = ((s.purgeExpired now).1, (s.purgeExpired now).2.slots) := by
  rw [slots_swept]
  refine Prod.ext ?_ rfl
  exact congrArg₂ (· - ·) (Table.size_map Entry.slot s.entries)
    (Table.size_map Entry.slot (s.swept now).entries)

/-- **No command leaves a slot without an end.** The store of slots answers as the memory store
does, and its slots are the entries of that; or the program ends with both. -/
theorem slots_obey (c : StoreCommand) :
    s.slots.obey? last now c = (s.obey? last now c).map fun r ↦ (r.1, r.2.slots) := by
  cases c with
  | increment key window policy =>
    rw [SlotStore.obey?, obey?, slots_increment, Option.map_map, Option.map_map]
    rfl
  | ttl key =>
    exact congrArg (fun d ↦ some (StoreAnswer.left (.ok d), s.slots)) (slots_ttl s now key)
  | get key =>
    exact congrArg (fun r ↦ some (StoreAnswer.octets (.ok r.1), r.2)) (slots_get s now key)
  | set key value ttl =>
    rw [SlotStore.obey?, obey?, slots_set, Option.map_map, Option.map_map]
    rfl
  | deleteByPattern pattern =>
    exact congrArg (fun r ↦ some (StoreAnswer.deleted (.ok r.1), r.2))
      (slots_deleteByPattern s now pattern)
  | contains key =>
    exact congrArg (fun b ↦ some (StoreAnswer.contains b, s.slots)) (slots_contains s now key)
  | size => exact congrArg (fun n ↦ some (StoreAnswer.size n, s.slots)) (slots_size s now)
  | isEmpty =>
    exact congrArg (fun n ↦ some (StoreAnswer.isEmpty (n == 0), s.slots)) (slots_size s now)
  | purgeExpired =>
    exact congrArg (fun r ↦ some (StoreAnswer.purged r.1, r.2)) (slots_purgeExpired s now)

theorem slots_answers (script : StoreScript) :
    s.slots.answers last now script = s.answers last now script := by
  induction script generalizing s now with
  | nil => rfl
  | cons step rest ih =>
    obtain ⟨d, c⟩ := step
    simp only [SlotStore.answers, answers, slots_obey]
    cases s.obey? last (now + d) c with
    | none => rfl
    | some r => exact congrArg (r.1 :: ·) (ih _ _)

theorem slots_after (script : StoreScript) :
    s.slots.after? last now script
      = (s.after? last now script).map fun r ↦ (r.1, r.2.slots) := by
  induction script generalizing s now with
  | nil => rfl
  | cons step rest ih =>
    obtain ⟨d, c⟩ := step
    rw [SlotStore.after?, after?, slots_obey]
    cases s.obey? last (now + d) c with
    | none => rfl
    | some r => exact ih _ _

end MemoryStore

end Gatehouse
