import Mathlib.Data.List.Forall2
import Gatehouse.Proofs.Store.Live

/-!
# The store that forgets on time

What a user of a store has in mind is a finite map whose entries vanish at the very instant of
their expiry. The ideal store below is that map, with its own clock; none of its operations looks
at an expiry, because an expired entry is not there to be looked at. The memory store keeps
expired entries, overwrites them in place, drops them when they are read, filters them out of its
counts and sweeps them away from time to time. No sequence of operations can tell the two apart.

## The last instant

An expiry is noted as an instant, and there is a last one. A command that would have to note a later
one ends the program: both stores have no answer to it, and a script is answered up to there. So the
two lists of answers agree in their length as well.

## The simulation

The invariant is `Represents`: the memory store's view at the present is the ideal store's table.
One lemma for each operation says that the answers agree and the invariant is kept, one more that
it is kept while time passes, and the theorem about whole scripts is an induction over these. The
number that an explicit purge reports is left out of the comparison: it counts exactly what the
ideal store cannot know.
-/

namespace Gatehouse

/-! ## The ideal store -/

/-- A finite map with a clock from which every entry vanishes at the instant of its expiry. -/
structure IdealStore where
  now : Instant
  entries : Table String Entry
  /-- No entry outlives its expiry. -/
  lasting : ∀ {key : String} {e : Entry}, entries.find? key = some e → now < e.expires

namespace IdealStore

def new (now : Instant) : IdealStore := ⟨now, Table.empty, by simp⟩

/-- Let time pass: what expires meanwhile vanishes. -/
def pass (i : IdealStore) (d : Duration) : IdealStore where
  now := i.now + d
  entries := i.entries.filter fun _ e ↦ i.now + d < e.expires
  lasting := by
    intro key e h
    rw [Table.find?_filter, Option.filter_eq_some_iff] at h
    simpa using h.2

/-- Give a key an entry. One that has no time at all vanishes at once. -/
def put (i : IdealStore) (key : String) (e : Entry) : IdealStore where
  now := i.now
  entries := if i.now < e.expires then i.entries.insert key e else i.entries.erase key
  lasting := by
    intro k e' h
    by_cases hk : k = key <;> split at h
    · simp_all [Table.find?_insert]
    · simp_all [Table.find?_erase]
    · exact i.lasting (by simpa [Table.find?_insert, hk] using h)
    · exact i.lasting (by simpa [Table.find?_erase, hk] using h)

/-- Count. A key that is absent or no counter starts at one, and its expiry is a window away; a
counter goes on, and its expiry moves only if the policy is the rolling one. -/
def increment? (last : Instant) (i : IdealStore) (key : String) (window : Duration)
    (policy : ExpiryPolicy) : Option (Nat × IdealStore) :=
  match i.entries.find? key with
  | some ⟨.counter n, expires⟩ =>
    match policy with
    | .rolling => (i.now.plus? window last).map fun t ↦ (n + 1, i.put key ⟨.counter (n + 1), t⟩)
    | .fixed => some (n + 1, i.put key ⟨.counter (n + 1), expires⟩)
  | _ => (i.now.plus? window last).map fun t ↦ (1, i.put key ⟨.counter 1, t⟩)

/-- Give a key a value, whatever it held. -/
def set? (last : Instant) (i : IdealStore) (key : String) (value : Bytes) (ttl : Duration) :
    Option IdealStore :=
  (i.now.plus? ttl last).map fun t ↦ i.put key ⟨.value value, t⟩

/-- The value of a key, or the decimal text of its count. -/
def get (i : IdealStore) (key : String) : Option Bytes :=
  match i.entries.find? key with
  | none => none
  | some ⟨.counter n, _⟩ => some (utf8 n.repr)
  | some ⟨.value b, _⟩ => some b

def ttl (i : IdealStore) (key : String) : Option Duration :=
  (i.entries.find? key).map fun e ↦ e.expires - i.now

/-- Remove the keys that match a pattern and say how many there were. -/
def deleteByPattern (i : IdealStore) (pattern : String) : Nat × IdealStore where
  fst := i.entries.count fun key _ ↦ Glob.isMatch pattern key
  snd :=
    { now := i.now
      entries := i.entries.filter fun key _ ↦ !Glob.isMatch pattern key
      lasting := by
        intro key e h
        rw [Table.find?_filter, Option.filter_eq_some_iff] at h
        exact i.lasting h.1 }

/-! ## What its operations do to its table -/

variable (i : IdealStore) (key k : String)

theorem find?_pass (d : Duration) :
    (i.pass d).entries.find? k = (i.entries.find? k).filter fun e ↦ e.isLive (i.now + d) := by
  rw [pass, Table.find?_filter]
  rfl

theorem find?_put (e : Entry) :
    (i.put key e).entries.find? k
      = if k = key then (some e).filter (fun e ↦ e.isLive i.now) else i.entries.find? k := by
  rw [put]
  by_cases hl : i.now < e.expires
  · simp [hl, Table.find?_insert, Option.filter, Entry.isLive]
  · simp [hl, Table.find?_erase, Option.filter, Entry.isLive]

end IdealStore

/-! ## Scripts -/

inductive StoreCommand where
  | increment (key : String) (window : Duration) (policy : ExpiryPolicy)
  | ttl (key : String)
  | get (key : String)
  | set (key : String) (value : Bytes) (ttl : Duration)
  | deleteByPattern (pattern : String)
  | contains (key : String)
  | size
  | isEmpty
  | purgeExpired
  deriving DecidableEq, Repr

inductive StoreAnswer where
  | count (n : Except StoreError Nat)
  | left (d : Except StoreError (Option Duration))
  | octets (b : Except StoreError (Option Bytes))
  | written (u : Except StoreError Unit)
  | deleted (n : Except StoreError Nat)
  | contains (b : Bool)
  | size (n : Nat)
  | isEmpty (b : Bool)
  | purged (n : Nat)

/-- Answers agree if they are equal. How many expired entries a purge has found is no matter. -/
def StoreAnswer.Agrees : StoreAnswer → StoreAnswer → Prop
  | .purged _, .purged _ => True
  | a, b => a = b

theorem StoreAnswer.Agrees.refl (a : StoreAnswer) : a.Agrees a := by
  cases a <;> simp [StoreAnswer.Agrees]

/-- How long a command asks that something be kept. -/
def StoreCommand.span? : StoreCommand → Option Duration
  | .increment _ window _ => some window
  | .set _ _ time => some time
  | _ => none

/-- Commands, each with the time that passes before it. -/
abbrev StoreScript := List (Duration × StoreCommand)

/-- How long a script takes. -/
def StoreScript.span : StoreScript → Duration
  | [] => 0
  | (d, _) :: rest => d + span rest

namespace MemoryStore

def obey (s : MemoryStore) (now : Instant) : StoreCommand → StoreAnswer × MemoryStore
  | .increment key window policy =>
    let (n, s) := CounterStore.increment now key window policy s
    (.count n, s)
  | .ttl key =>
    let (d, s) := CounterStore.ttl now key s
    (.left d, s)
  | .get key =>
    let (b, s) := CacheStore.get now key s
    (.octets b, s)
  | .set key value ttl =>
    let (u, s) := CacheStore.set now key value ttl s
    (.written u, s)
  | .deleteByPattern pattern =>
    let (n, s) := CacheStore.deleteByPattern now pattern s
    (.deleted n, s)
  | .contains key => (.contains (s.contains now key), s)
  | .size => (.size (s.size now), s)
  | .isEmpty => (.isEmpty (s.isEmpty now), s)
  | .purgeExpired =>
    let (n, s) := s.purgeExpired now
    (.purged n, s)

/-- What `obey` is on a clock with a last instant. -/
def obey? (last : Instant) (s : MemoryStore) (now : Instant) :
    StoreCommand → Option (StoreAnswer × MemoryStore)
  | .increment key window policy =>
    (s.increment? last now key window policy).map fun (n, s) ↦ (.count (.ok n), s)
  | .set key value ttl =>
    (s.set? last now key value ttl).map fun s ↦ (.written (.ok ()), s)
  | c => some (s.obey now c)

theorem obey?_eq_some {last now : Instant} {s : MemoryStore} {c : StoreCommand}
    {r : StoreAnswer × MemoryStore} (h : s.obey? last now c = some r) : s.obey now c = r := by
  cases c with
  | increment key window policy =>
    obtain ⟨r', hr', rfl⟩ := Option.map_eq_some_iff.mp h
    rw [← increment?_eq_some hr']
    rfl
  | set key value ttl =>
    obtain ⟨s', hs', rfl⟩ := Option.map_eq_some_iff.mp h
    rw [← set?_eq_some hs']
    rfl
  | _ => exact Option.some.inj h

/-- The answers to a script that begins at an instant, up to a command that ends the program. -/
def answers (last : Instant) (s : MemoryStore) (now : Instant) : StoreScript → List StoreAnswer
  | [] => []
  | (d, c) :: rest =>
    match s.obey? last (now + d) c with
    | none => []
    | some (a, s) => a :: s.answers last (now + d) rest

end MemoryStore

namespace IdealStore

/-- Obey a command. A purge finds nothing. -/
def obey? (last : Instant) (i : IdealStore) : StoreCommand → Option (StoreAnswer × IdealStore)
  | .increment key window policy =>
    (i.increment? last key window policy).map fun (n, i) ↦ (.count (.ok n), i)
  | .ttl key => some (.left (.ok (i.ttl key)), i)
  | .get key => some (.octets (.ok (i.get key)), i)
  | .set key value ttl => (i.set? last key value ttl).map fun i ↦ (.written (.ok ()), i)
  | .deleteByPattern pattern =>
    let (n, i) := i.deleteByPattern pattern
    some (.deleted (.ok n), i)
  | .contains key => some (.contains (i.entries.find? key).isSome, i)
  | .size => some (.size i.entries.size, i)
  | .isEmpty => some (.isEmpty (i.entries.size == 0), i)
  | .purgeExpired => some (.purged 0, i)

def answers (last : Instant) (i : IdealStore) : StoreScript → List StoreAnswer
  | [] => []
  | (d, c) :: rest =>
    match (i.pass d).obey? last c with
    | none => []
    | some (a, i) => a :: i.answers last rest

end IdealStore

/-! ## The simulation -/

theorem rel_map {α β γ δ : Type} {r : α → β → Prop} {q : γ → δ → Prop} {f : α → γ} {g : β → δ}
    {o : Option α} {o' : Option β} (h : Option.Rel r o o') (hfg : ∀ a b, r a b → q (f a) (g b)) :
    Option.Rel q (o.map f) (o'.map g) := by
  cases h with
  | none => exact .none
  | some hab => exact .some (hfg _ _ hab)

/-- At present the memory store holds what the ideal store holds. -/
def Represents (s : MemoryStore) (i : IdealStore) : Prop :=
  ∀ k, s.live? i.now k = i.entries.find? k

namespace Represents

variable {s : MemoryStore} {i : IdealStore}

theorem new (start : Instant) : Represents (MemoryStore.new start) (IdealStore.new start) :=
  fun _ ↦ rfl

/-- The ideal store loses by waiting what the memory store no longer shows. -/
theorem pass (h : Represents s i) (d : Duration) : Represents s (i.pass d) := by
  intro k
  rw [IdealStore.find?_pass, ← h k]
  exact (MemoryStore.live?_later (Nat.le_add_right i.now d)).symm

/-- Both stores write the same entry, and an entry without any time is written by neither. -/
theorem write (h : Represents s i) (key : String) (e : Entry) :
    Represents (MemoryStore.sweepIfDue { s with entries := s.entries.insert key e } i.now)
      (i.put key e) := by
  intro k
  have hnow : (i.put key e).now = i.now := rfl
  rw [hnow, MemoryStore.live?_write e (Nat.le_refl _), IdealStore.find?_put, h k]

/-- Both stores end, or both go on with related results. -/
abbrev Both {α β : Type} (r : α → β → Prop) : Option (α × MemoryStore) → Option (β × IdealStore) →
    Prop :=
  Option.Rel fun a b ↦ r a.1 b.1 ∧ Represents a.2 b.2

theorem set (h : Represents s i) (last : Instant) (key : String) (value : Bytes) (ttl : Duration) :
    Option.Rel Represents (s.set? last i.now key value ttl) (i.set? last key value ttl) := by
  rw [MemoryStore.set?, IdealStore.set?]
  cases i.now.plus? ttl last with
  | none => exact .none
  | some t => exact .some (h.write key _)

/-- The two ways of counting are one function of the entry found. -/
theorem increment?_eq (last : Instant) (key : String) (window : Duration) (policy : ExpiryPolicy) :
    i.increment? last key window policy
      = (MemoryStore.counted? last (i.entries.find? key) i.now window policy).map fun r ↦
          (r.1, i.put key r.2) := by
  unfold IdealStore.increment?
  rcases i.entries.find? key with _ | ⟨n | b, expires⟩ <;> cases policy <;>
    simp [MemoryStore.counted?, Function.comp_def]

theorem increment (h : Represents s i) (last : Instant) (key : String) (window : Duration)
    (policy : ExpiryPolicy) :
    Both (· = ·) (s.increment? last i.now key window policy)
      (i.increment? last key window policy) := by
  rw [increment?_eq, ← h key, MemoryStore.increment?]
  cases MemoryStore.counted? last (s.live? i.now key) i.now window policy with
  | none => exact .none
  | some r => exact .some ⟨rfl, h.write key r.2⟩

theorem ttl_eq (h : Represents s i) (key : String) : s.ttl i.now key = i.ttl key := by
  rw [MemoryStore.ttl, IdealStore.ttl, h key]

theorem get (h : Represents s i) (key : String) :
    (s.get i.now key).1 = i.get key ∧ Represents (s.get i.now key).2 i := by
  refine ⟨?_, fun k ↦ (MemoryStore.live?_get (Nat.le_refl _)).trans (h k)⟩
  rw [MemoryStore.get_fst, IdealStore.get, h key]
  rcases i.entries.find? key with _ | ⟨n | b, expires⟩ <;> rfl

theorem contains_eq (h : Represents s i) (key : String) :
    s.contains i.now key = (i.entries.find? key).isSome := by
  rw [MemoryStore.contains, h key]

/-- The memory store counts its live entries, the ideal store all it has. -/
theorem size_eq (h : Represents s i) : s.size i.now = i.entries.size := by
  refine Table.size_eq_of_find?_eq fun k ↦ ?_
  rw [Table.find?_filter]
  exact h k

theorem purgeExpired (h : Represents s i) : Represents (s.purgeExpired i.now).2 i :=
  fun k ↦ (MemoryStore.live?_purgeExpired (Nat.le_refl _)).trans (h k)

/-- Expired entries are deleted with the rest, but not counted. -/
theorem deleteByPattern (h : Represents s i) (pattern : String) :
    (s.deleteByPattern i.now pattern).1 = (i.deleteByPattern pattern).1 ∧
      Represents (s.deleteByPattern i.now pattern).2 (i.deleteByPattern pattern).2 := by
  constructor
  -- the number of matching keys, and what is left of the table
  · refine Table.count_eq_of_find?_eq fun k ↦ ?_
    rw [← h k, MemoryStore.live?, Option.filter_filter]
    simp only [Bool.and_comm]
  · intro k
    have hnow : (i.deleteByPattern pattern).2.now = i.now := rfl
    rw [hnow, MemoryStore.live?_deleteByPattern, h k, IdealStore.deleteByPattern,
      Table.find?_filter]
    by_cases hm : Glob.isMatch pattern k = true <;> cases i.entries.find? k <;>
      simp [Option.filter, hm]

/-- **One command.** Both stores end, or the answers agree and what was represented still is. -/
theorem obey (h : Represents s i) (last : Instant) (c : StoreCommand) :
    Both StoreAnswer.Agrees (s.obey? last i.now c) (i.obey? last c) := by
  cases c with
  | increment key window policy =>
    exact rel_map (h.increment last key window policy) fun _ _ hr ↦
      ⟨congrArg (fun n ↦ StoreAnswer.count (.ok n)) hr.1, hr.2⟩
  | ttl key => exact .some ⟨congrArg (fun d ↦ StoreAnswer.left (.ok d)) (h.ttl_eq key), h⟩
  | get key =>
    obtain ⟨hoctets, hrep⟩ := h.get key
    exact .some ⟨congrArg (fun b ↦ StoreAnswer.octets (.ok b)) hoctets, hrep⟩
  | set key value ttl =>
    exact rel_map (h.set last key value ttl) fun _ _ hrep ↦ ⟨StoreAnswer.Agrees.refl _, hrep⟩
  | deleteByPattern pattern =>
    obtain ⟨hdeleted, hrep⟩ := h.deleteByPattern pattern
    exact .some ⟨congrArg (fun n ↦ StoreAnswer.deleted (.ok n)) hdeleted, hrep⟩
  | contains key => exact .some ⟨congrArg StoreAnswer.contains (h.contains_eq key), h⟩
  | size => exact .some ⟨congrArg StoreAnswer.size h.size_eq, h⟩
  | isEmpty => exact .some ⟨congrArg (fun n ↦ StoreAnswer.isEmpty (n == 0)) h.size_eq, h⟩
  -- how much there was to purge is the one thing that laziness changes
  | purgeExpired => exact .some ⟨trivial, h.purgeExpired⟩

end Represents

namespace IdealStore

variable {last : Instant} {i : IdealStore} {r : StoreAnswer × IdealStore}

theorem now_obey {c : StoreCommand} (h : i.obey? last c = some r) : r.2.now = i.now := by
  cases c with
  | increment key window policy =>
    obtain ⟨r', hr', rfl⟩ := Option.map_eq_some_iff.mp h
    rw [Represents.increment?_eq] at hr'
    obtain ⟨e, -, rfl⟩ := Option.map_eq_some_iff.mp hr'
    rfl
  | set key value ttl =>
    obtain ⟨i', hi', rfl⟩ := Option.map_eq_some_iff.mp h
    obtain ⟨t, -, rfl⟩ := Option.map_eq_some_iff.mp hi'
    rfl
  | _ =>
    cases h
    rfl

/-- A command whose span the clock lasts for does not end the program. -/
theorem exists_obey {c : StoreCommand} (h : ∀ d ∈ c.span?, i.now + d ≤ last) :
    ∃ r, i.obey? last c = some r := by
  have hplus : ∀ d ∈ c.span?, i.now.plus? d last = some (i.now + d) := fun d hd ↦ by
    rw [Instant.plus?_eq_some_iff]
    exact ⟨h d hd, rfl⟩
  cases c with
  | increment key window policy =>
    rw [obey?, increment?, hplus window rfl]
    rcases i.entries.find? key with _ | ⟨n | b, expires⟩
    · exact ⟨_, rfl⟩
    · cases policy <;> exact ⟨_, rfl⟩
    · exact ⟨_, rfl⟩
  | set key value ttl =>
    rw [obey?, set?, hplus ttl rfl]
    exact ⟨_, rfl⟩
  | _ => exact ⟨_, rfl⟩

/-- A script is answered to its end if the clock lasts for whatever is asked in it. -/
theorem length_answers {script : StoreScript}
    (h : ∀ step ∈ script, ∀ d ∈ step.2.span?, i.now + StoreScript.span script + d ≤ last) :
    (i.answers last script).length = script.length := by
  induction script generalizing i with
  | nil => rfl
  | cons step rest ih =>
    obtain ⟨d, c⟩ := step
    rw [List.forall_mem_cons] at h
    have hnow : i.now + d ≤ i.now + StoreScript.span ((d, c) :: rest) :=
      Nat.add_le_add_left (Nat.le_add_right d _) i.now
    obtain ⟨⟨a, i'⟩, hobey⟩ := exists_obey (i := i.pass d) fun d' hd' ↦
      Nat.le_trans (Nat.add_le_add_right hnow d') (h.1 d' hd')
    have hnow' : i'.now = i.now + d := now_obey hobey
    simp only [answers, hobey, List.length_cons]
    refine congrArg (· + 1) (ih fun step hstep d' hd' ↦ ?_)
    rw [hnow', Nat.add_assoc i.now]
    exact h.2 step hstep d' hd'

end IdealStore

theorem Represents.answers_agree {last : Instant} {s : MemoryStore} {i : IdealStore}
    (h : Represents s i) (script : StoreScript) :
    List.Forall₂ StoreAnswer.Agrees (s.answers last i.now script) (i.answers last script) := by
  induction script generalizing s i with
  | nil => exact .nil
  | cons step rest ih =>
    obtain ⟨d, c⟩ := step
    have hboth := (h.pass d).obey last c
    have hpass : (i.pass d).now = i.now + d := rfl
    rw [hpass] at hboth
    simp only [MemoryStore.answers, IdealStore.answers]
    generalize hs : s.obey? last (i.now + d) c = o at hboth
    generalize hi : (i.pass d).obey? last c = o' at hboth
    cases hboth with
    | none => exact .nil
    | some hr =>
      have hrest := ih hr.2
      rw [IdealStore.now_obey hi, hpass] at hrest
      exact .cons hr.1 hrest

end Gatehouse
