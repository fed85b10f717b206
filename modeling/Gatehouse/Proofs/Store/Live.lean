import Gatehouse.Store.Memory

/-!
# What a memory store holds

A memory store keeps expired entries for a while, so its table is not what it holds. What it holds
at an instant is the view `live?`, and this module says what every operation does to that view, at
the instant of the operation and at every later one.

## Why later instants

A sweep at one instant removes what has expired by then, and nothing that is live at that instant
or after it. The view at all instants from the present on therefore survives every removal, while
the view at a single past instant does not. Each lemma is stated for a `later` instant; the
present is the case `Nat.le_refl`.
-/

namespace Gatehouse

/-! ## Tables with the same view -/

namespace Table

variable {κ α : Type}

theorem nodup_pairs (t : Table κ α) : t.pairs.Nodup := by
  have h : (t.pairs.map Prod.fst).Pairwise (· ≠ ·) := t.nodup
  exact (List.pairwise_map.mp h).imp fun hne heq ↦ hne (congrArg Prod.fst heq)

variable [DecidableEq κ]

theorem mem_pairs_iff {t : Table κ α} {e : κ × α} : e ∈ t.pairs ↔ t.find? e.1 = some e.2 :=
  find?_eq_some_iff.symm

/-- The keys are those that have a value. -/
theorem mem_keys_iff {t : Table κ α} {k : κ} : k ∈ t.pairs.map Prod.fst ↔ t.find? k ≠ none := by
  rw [List.mem_map, Option.ne_none_iff_exists']
  simp only [find?_eq_some_iff]
  constructor
  · rintro ⟨⟨k, v⟩, hmem, rfl⟩
    exact ⟨v, hmem⟩
  · rintro ⟨v, hmem⟩
    exact ⟨(k, v), hmem, rfl⟩

/-- The number of keys is a function of the view: the order of the pairs does not matter. -/
theorem size_eq_of_find?_eq {t u : Table κ α} (h : ∀ k, t.find? k = u.find? k) :
    t.size = u.size := by
  have hperm : t.pairs.Perm u.pairs := by
    rw [List.perm_ext_iff_of_nodup t.nodup_pairs u.nodup_pairs]
    intro e
    rw [mem_pairs_iff, mem_pairs_iff, h]
  exact hperm.length_eq

/-- Two tables count alike if the pairs they count are the same. -/
theorem count_eq_of_find?_eq {t u : Table κ α} {p q : κ → α → Bool}
    (h : ∀ k, (t.find? k).filter (p k) = (u.find? k).filter (q k)) : t.count p = u.count q := by
  refine size_eq_of_find?_eq fun k ↦ ?_
  rw [find?_filter, find?_filter, h]

end Table

/-! ## Entries in time -/

namespace Entry

variable {e : Entry} {now later : Instant}

theorem isLive_iff : e.isLive now = true ↔ now < e.expires := by simp [isLive]

theorem isLive_of_le (h : now ≤ later) (hl : e.isLive later = true) : e.isLive now = true :=
  isLive_iff.mpr (Nat.lt_of_le_of_lt h (isLive_iff.mp hl))

theorem filter_isLive_of_lt (h : now < e.expires) :
    (some e).filter (fun e ↦ e.isLive now) = some e :=
  Option.filter_some_pos (isLive_iff.mpr h)

theorem filter_isLive_of_le (h : e.expires ≤ now) :
    (some e).filter (fun e ↦ e.isLive now) = none :=
  Option.filter_some_neg (by simpa [isLive] using h)

/-- Asking twice whether an entry is live is asking once, at the later instant. -/
theorem filter_isLive_isLive (h : now ≤ later) (o : Option Entry) :
    (o.filter fun e ↦ e.isLive now).filter (fun e ↦ e.isLive later)
      = o.filter fun e ↦ e.isLive later := by
  rw [Option.filter_filter]
  refine congrArg (Option.filter · o) (funext fun e ↦ ?_)
  cases hl : e.isLive later with
  | false => simp
  | true => simp [isLive_of_le h hl]

end Entry

namespace MemoryStore

variable {s : MemoryStore} {now later : Instant} {key k : String}

/-- Waiting drops what expires meanwhile, and nothing else. -/
theorem live?_later (h : now ≤ later) :
    (s.live? now k).filter (fun e ↦ e.isLive later) = s.live? later k :=
  Entry.filter_isLive_isLive h _

/-! ## Sweeping -/

theorem live?_swept (h : now ≤ later) : (s.swept now).live? later k = s.live? later k := by
  rw [live?, swept, Table.find?_filter]
  exact Entry.filter_isLive_isLive h _

theorem entries_sweepIfDue (s : MemoryStore) (now : Instant) :
    (s.sweepIfDue now).entries
      = if s.elapsed now < s.nextSweep then s.entries else (s.swept now).entries := by
  rw [sweepIfDue]
  split <;> rfl

theorem live?_sweepIfDue (h : now ≤ later) :
    (s.sweepIfDue now).live? later k = s.live? later k := by
  rw [live?, entries_sweepIfDue]
  split
  · rfl
  · exact live?_swept h

theorem live?_purgeExpired (h : now ≤ later) :
    (s.purgeExpired now).2.live? later k = s.live? later k := live?_swept h

/-! ## Writing -/

/-- What a write does to the view, the sweep behind it included. -/
theorem live?_write (e : Entry) (h : now ≤ later) :
    (sweepIfDue { s with entries := s.entries.insert key e } now).live? later k
      = if k = key then (some e).filter (fun e ↦ e.isLive later) else s.live? later k := by
  rw [live?_sweepIfDue h, live?, Table.find?_insert]
  split <;> rfl

theorem increment_fst (s : MemoryStore) (now : Instant) (key : String) (window : Duration)
    (policy : ExpiryPolicy) :
    (s.increment now key window policy).1 = (counted (s.live? now key) now window policy).1 := rfl

theorem live?_increment (window : Duration) (policy : ExpiryPolicy) (h : now ≤ later) :
    (s.increment now key window policy).2.live? later k
      = if k = key then
          (some (counted (s.live? now key) now window policy).2).filter fun e ↦ e.isLive later
        else s.live? later k :=
  live?_write _ h

/-- A counter that has been counted ends a window from now. Under the fixed policy it may end as it
did before, but then that is still to come. -/
theorem expires_counted (s : MemoryStore) (now : Instant) (key : String) (window : Duration)
    (policy : ExpiryPolicy) :
    (counted (s.live? now key) now window policy).2.expires = now + window ∨
      policy ≠ .rolling ∧
        now < (counted (s.live? now key) now window policy).2.expires := by
  rcases hfound : s.live? now key with _ | ⟨n | b, expires⟩
  · exact .inl rfl
  · have hlive : now < expires := Entry.isLive_iff.mp (Option.filter_eq_some_iff.mp hfound).2
    by_cases hrolling : policy = .rolling
    · exact .inl (if_pos hrolling)
    · have hkept : (counted (some ⟨.counter n, expires⟩) now window policy).2.expires = expires :=
        if_neg hrolling
      exact .inr ⟨hrolling, Nat.lt_of_lt_of_eq hlive hkept.symm⟩
  · exact .inl rfl

theorem live?_set (value : Bytes) (ttl : Duration) (h : now ≤ later) :
    (s.set now key value ttl).live? later k
      = if k = key then
          (some (⟨.value value, now + ttl⟩ : Entry)).filter fun e ↦ e.isLive later
        else s.live? later k :=
  live?_write _ h

/-! ## Writing on a clock that ends -/

section Ending

variable {last : Instant} {window : Duration} {policy : ExpiryPolicy} {before : Option Entry}

theorem counted?_eq_some {r : Nat × Entry}
    (h : counted? last before now window policy = some r) :
    counted before now window policy = r := by
  have hdated : ∀ f : Instant → Nat × Entry, (now.plus? window last).map f = some r →
      f (now + window) = r := by
    intro f hf
    obtain ⟨t, ht, rfl⟩ := Option.map_eq_some_iff.mp hf
    rw [(Instant.plus?_eq_some_iff.mp ht).2]
  rcases before with _ | ⟨n | b, expires⟩ <;> cases policy
  case some.counter.fixed => exact Option.some.inj h
  all_goals exact hdated _ h

/-- An increment ends the program if it has to begin a window that the clock does not last for. -/
theorem counted?_eq_none_iff : counted? last before now window policy = none ↔
    last < now + window ∧ (policy = .fixed → ∀ n t, before ≠ some ⟨.counter n, t⟩) := by
  have hdated : ∀ f : Instant → Nat × Entry,
      (now.plus? window last).map f = none ↔ last < now + window := fun f ↦ by
    rw [Option.map_eq_none_iff, Instant.plus?_eq_none_iff]
  rcases before with _ | ⟨n | b, expires⟩ <;> cases policy
  case some.counter.fixed => simp [counted?]
  all_goals simp [counted?, hdated]

theorem increment?_eq_some {r : Nat × MemoryStore}
    (h : s.increment? last now key window policy = some r) :
    s.increment now key window policy = r := by
  obtain ⟨e, he, rfl⟩ := Option.map_eq_some_iff.mp h
  rw [increment, counted?_eq_some he]

theorem increment?_eq_none_iff : s.increment? last now key window policy = none ↔
    last < now + window ∧
      (policy = .fixed → ∀ n t, s.live? now key ≠ some ⟨.counter n, t⟩) := by
  rw [increment?, Option.map_eq_none_iff, counted?_eq_none_iff]

theorem set?_eq_some {value : Bytes} {ttl : Duration} {s' : MemoryStore}
    (h : s.set? last now key value ttl = some s') : s.set now key value ttl = s' := by
  obtain ⟨t, ht, rfl⟩ := Option.map_eq_some_iff.mp h
  rw [set, (Instant.plus?_eq_some_iff.mp ht).2]

end Ending

/-! ## Reading -/

theorem get_fst (s : MemoryStore) (now : Instant) (key : String) :
    (s.get now key).1 = (s.live? now key).map fun e ↦ e.held.octets := by
  rw [get, live?]
  cases s.entries.find? key with
  | none => rfl
  | some e => by_cases hl : e.isLive now = true <;> simp [Option.filter, hl]

/-- Reading drops an expired entry, which the view does not have anyway. -/
theorem live?_get (h : now ≤ later) : (s.get now key).2.live? later k = s.live? later k := by
  rw [get]
  cases hf : s.entries.find? key with
  | none => rfl
  | some e =>
    by_cases hl : e.isLive now = true
    · simp [hl]
    · have hdead : ¬ e.isLive later = true := fun hl' ↦ hl (Entry.isLive_of_le h hl')
      by_cases hk : k = key
      · simp [hl, live?, Table.find?_erase, hk, hf, Option.filter, hdead]
      · simp [hl, live?, Table.find?_erase, hk]

/-! ## Deleting and counting -/

theorem live?_deleteByPattern (now : Instant) (pattern : String) :
    (s.deleteByPattern now pattern).2.live? later k
      = if Glob.isMatch pattern k = true then none else s.live? later k := by
  rw [live?, live?, deleteByPattern, Table.find?_filter]
  by_cases hm : Glob.isMatch pattern k = true
  · rw [if_pos hm]
    cases s.entries.find? k <;> simp [Option.filter, hm]
  · rw [if_neg hm]
    cases s.entries.find? k <;> simp [Option.filter, hm]

end MemoryStore

end Gatehouse
