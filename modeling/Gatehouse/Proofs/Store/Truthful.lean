import Gatehouse.Proofs.Store.Live
import Gatehouse.Store.Faulty
import Gatehouse.World
import Mathlib.Data.Set.Insert

/-!
# Stores that give what they were given

Of the octets that are read from a store little is known: others may write to it, entries expire,
and every operation may fail. But a store does not make octets up. What it gives was written to it,
or is the numeral of one of its counters. This is what **`TruthfulStore`** says, without saying
anything about keys, times or failures; the store in memory is truthful, and so is every truthful
store some of whose operations fail.

So what is true of all that is ever written, and of numerals, is true of all that is read. A run
*keeps* such a set of octets, `Run.Keeps`, if it writes nothing else. Runs that keep a set compose,
and while the rest of the world keeps it as well, each of them reads what belongs to the set.
-/

namespace Gatehouse

/-- The octets as which counters are read. -/
def numerals : Set Bytes := {b | ∃ n : Nat, b = utf8 n.repr}

/-- A store that gives only what was written to it, or numerals. -/
class TruthfulStore (σ : Type) [CounterStore σ] [CacheStore σ] where
  /-- The octets that a store may give, now or later, if nothing more is written to it. -/
  octets : σ → Set Bytes
  mem_of_get : ∀ {now : Instant} {key : String} {s : σ} {b : Bytes},
    (CacheStore.get now key s).1 = .ok (some b) → b ∈ octets s
  get_subset : ∀ (now : Instant) (key : String) (s : σ),
    octets (CacheStore.get now key s).2 ⊆ octets s
  set_subset : ∀ (now : Instant) (key : String) (value : Bytes) (ttl : Duration) (s : σ),
    octets (CacheStore.set now key value ttl s).2 ⊆ octets s ∪ {value}
  deleteByPattern_subset : ∀ (now : Instant) (pattern : String) (s : σ),
    octets (CacheStore.deleteByPattern now pattern s).2 ⊆ octets s
  ping_subset : ∀ (now : Instant) (s : σ), octets (CacheStore.ping now s).2 ⊆ octets s
  increment_subset : ∀ (now : Instant) (key : String) (window : Duration) (policy : ExpiryPolicy)
    (s : σ), octets (CounterStore.increment now key window policy s).2 ⊆ octets s ∪ numerals
  ttl_subset : ∀ (now : Instant) (key : String) (s : σ),
    octets (CounterStore.ttl now key s).2 ⊆ octets s

/-! ## The store in memory -/

namespace MemoryStore

/-- What the entries of a store hold, expired or not. -/
def octets (s : MemoryStore) : Set Bytes :=
  {b | ∃ k e, s.entries.find? k = some e ∧ e.held.octets = b}

theorem octets_new (now : Instant) : (new now).octets = ∅ :=
  Set.eq_empty_of_forall_notMem fun _ ⟨_, _, h, _⟩ ↦ nomatch h

/-- Where there are fewer entries, there is nothing new. -/
theorem octets_subset_of_find? {s s' : MemoryStore}
    (h : ∀ k e, s'.entries.find? k = some e → s.entries.find? k = some e) :
    s'.octets ⊆ s.octets := fun _ ⟨k, e, he, hb⟩ ↦ ⟨k, e, h k e he, hb⟩

theorem octets_sweepIfDue (s : MemoryStore) (now : Instant) :
    (s.sweepIfDue now).octets ⊆ s.octets :=
  octets_subset_of_find? fun k e he ↦ by
    rw [sweepIfDue] at he
    split_ifs at he
    · exact he
    · rw [swept, Table.find?_filter] at he
      exact (Option.filter_eq_some_iff.mp he).1

/-- An entry that is written brings what it holds, and nothing else. -/
theorem octets_write (s : MemoryStore) (now : Instant) (key : String) (e : Entry) :
    (sweepIfDue { s with entries := s.entries.insert key e } now).octets ⊆
      s.octets ∪ {e.held.octets} := by
  refine (octets_sweepIfDue _ now).trans fun b ⟨k, e', he, hb⟩ ↦ ?_
  rw [Table.find?_insert] at he
  split_ifs at he
  · cases he
    exact .inr hb.symm
  · exact .inl ⟨k, e', he, hb⟩

theorem exists_counted_held (before : Option Entry) (now : Instant) (window : Duration)
    (policy : ExpiryPolicy) : ∃ n, (counted before now window policy).2.held = .counter n := by
  rcases before with _ | ⟨n | b, expires⟩ <;> exact ⟨_, rfl⟩

instance : TruthfulStore MemoryStore where
  octets := octets
  mem_of_get {now key s b} h := by
    simp only [CacheStore.get, get] at h
    split at h
    · cases h
    · rename_i e he
      split_ifs at h
      · exact ⟨key, e, he, Option.some.inj (Except.ok.inj h)⟩
      · cases h
  get_subset now key s := by
    simp only [CacheStore.get, get]
    split
    · exact subset_rfl
    · split_ifs
      · exact subset_rfl
      · refine octets_subset_of_find? fun k e he ↦ ?_
        rw [Table.find?_erase] at he
        split_ifs at he
        exact he
  set_subset now key value ttl s := octets_write s now key ⟨.value value, now + ttl⟩
  deleteByPattern_subset now pattern s := octets_subset_of_find? fun k e he ↦ by
    simp only [CacheStore.deleteByPattern, deleteByPattern, Table.find?_filter] at he
    exact (Option.filter_eq_some_iff.mp he).1
  ping_subset _ _ := subset_rfl
  increment_subset now key window policy s := by
    obtain ⟨n, hn⟩ := exists_counted_held (s.live? now key) now window policy
    refine (octets_write s now key (counted (s.live? now key) now window policy).2).trans ?_
    rw [hn]
    exact Set.union_subset_union_right _ (Set.singleton_subset_iff.mpr ⟨n, rfl⟩)
  ttl_subset _ _ _ := subset_rfl

end MemoryStore

/-! ## Stores that fail -/

namespace Faulty

variable {σ α : Type}

/-- An operation fails and changes nothing, or is handed on. -/
theorem guard_cases (op : StoreOp) (access : Access σ α) (s : Faulty σ) :
    guard op access s = (.error (.unavailable s.reason), s) ∨
      guard op access s = ((access s.inner).1, { s with inner := (access s.inner).2 }) := by
  rw [guard]
  split_ifs
  · exact .inl rfl
  · exact .inr rfl

variable [CounterStore σ] [CacheStore σ] [TruthfulStore σ]

theorem octets_guard (op : StoreOp) {access : Access σ α} {more : Set Bytes}
    (h : ∀ s, TruthfulStore.octets (access s).2 ⊆ TruthfulStore.octets s ∪ more) (s : Faulty σ) :
    TruthfulStore.octets (guard op access s).2.inner ⊆ TruthfulStore.octets s.inner ∪ more := by
  rcases guard_cases op access s with hguard | hguard <;> rw [hguard]
  · exact Set.subset_union_left
  · exact h s.inner

theorem octets_guard_of_subset (op : StoreOp) {access : Access σ α}
    (h : ∀ s, TruthfulStore.octets (access s).2 ⊆ TruthfulStore.octets s) (s : Faulty σ) :
    TruthfulStore.octets (guard op access s).2.inner ⊆ TruthfulStore.octets s.inner := by
  rcases guard_cases op access s with hguard | hguard <;> rw [hguard]
  exact h s.inner

instance : TruthfulStore (Faulty σ) where
  octets s := TruthfulStore.octets s.inner
  mem_of_get {now key s b} h := by
    have hget : (guard .get (CacheStore.get now key) s).1 = .ok (some b) := h
    rcases guard_cases .get (CacheStore.get now key) s with hguard | hguard <;> rw [hguard] at hget
    · cases hget
    · exact TruthfulStore.mem_of_get hget
  get_subset now key := octets_guard_of_subset .get (TruthfulStore.get_subset now key)
  set_subset now key value ttl := octets_guard .set (TruthfulStore.set_subset now key value ttl)
  deleteByPattern_subset now pattern :=
    octets_guard_of_subset .deleteByPattern (TruthfulStore.deleteByPattern_subset now pattern)
  ping_subset now := octets_guard_of_subset .ping (TruthfulStore.ping_subset now)
  increment_subset now key window policy :=
    octets_guard .increment (TruthfulStore.increment_subset now key window policy)
  ttl_subset now key := octets_guard_of_subset .ttl (TruthfulStore.ttl_subset now key)

end Faulty

/-! ## Runs that keep a set -/

namespace Run

open TruthfulStore

variable {σ α β : Type} [CounterStore σ] [CacheStore σ] [TruthfulStore σ]

/-- If a store gives nothing but octets of a set, then neither does it after the run, and the answer
of the run is of the given kind. -/
def Keeps (p : Set Bytes) (gives : α → Prop) (r : Run σ α) : Prop :=
  ∀ w, octets w.store ⊆ p → octets (r w).2.store ⊆ p ∧ gives (r w).1

variable {p : Set Bytes} {gives gives' : α → Prop} {gives'' : β → Prop}

theorem keeps_pure {a : α} (ha : gives a) : (pure a : Run σ α).Keeps p gives := fun _ hw ↦ ⟨hw, ha⟩

theorem Keeps.bind {r : Run σ α} {f : α → Run σ β} (hr : r.Keeps p gives)
    (hf : ∀ a, gives a → (f a).Keeps p gives'') : (r >>= f).Keeps p gives'' := fun w hw ↦
  hf _ (hr w hw).2 (r w).2 (hr w hw).1

theorem Keeps.imp {r : Run σ α} (hr : r.Keeps p gives) (h : ∀ a, gives a → gives' a) :
    r.Keeps p gives' := fun w hw ↦ (hr w hw).imp_right (h _)

theorem keeps_note (n : Note) : (note n : Run σ Unit).Keeps p fun _ ↦ True :=
  fun _ hw ↦ ⟨hw, trivial⟩

theorem keeps_now : (now : Run σ Instant).Keeps p fun _ ↦ True := fun _ hw ↦ ⟨hw, trivial⟩

/-- What is read belongs to the set. -/
theorem keeps_get (key : String) : (get key : Run σ _).Keeps p fun answer ↦
    ∀ b, answer = .ok (some b) → b ∈ p := fun w hw ↦
  ⟨(get_subset w.now key w.store).trans hw, fun _ hb ↦ hw (mem_of_get hb)⟩

theorem keeps_set (key : String) {value : Bytes} (ttl : Duration) (hvalue : value ∈ p) :
    (set key value ttl : Run σ _).Keeps p fun _ ↦ True := fun w hw ↦
  ⟨(set_subset w.now key value ttl w.store).trans
    (Set.union_subset hw (Set.singleton_subset_iff.mpr hvalue)), trivial⟩

theorem keeps_deleteByPattern (pattern : String) :
    (deleteByPattern pattern : Run σ _).Keeps p fun _ ↦ True := fun w hw ↦
  ⟨(deleteByPattern_subset w.now pattern w.store).trans hw, trivial⟩

theorem keeps_ping : (ping : Run σ _).Keeps p fun _ ↦ True := fun w hw ↦
  ⟨(ping_subset w.now w.store).trans hw, trivial⟩

theorem keeps_increment (hnumerals : numerals ⊆ p) (key : String) (window : Duration)
    (policy : ExpiryPolicy) : (increment key window policy : Run σ _).Keeps p fun _ ↦ True :=
  fun w hw ↦ ⟨(increment_subset w.now key window policy w.store).trans
    (Set.union_subset hw hnumerals), trivial⟩

theorem keeps_ttl (key : String) : (ttl key : Run σ _).Keeps p fun _ ↦ True := fun w hw ↦
  ⟨(ttl_subset w.now key w.store).trans hw, trivial⟩

end Run

end Gatehouse
