import Gatehouse.Proofs.Limiter.RetryAfter

/-!
# The second at which a counter is said to be over

A verdict names the second at which the counter of its client is over. The time that the counter
has left is rounded up for this, but it is added to the last full second of the clock, and the
clock may be past that by almost another second. **`datesCounters`** says what comes of it, in
every state of the store: the second that is named is never a whole second away from the end of the
counter, and it is too early exactly if the clock is past its last full second by more than the
time left lacks to a whole number of seconds. `resetAt_lt_expires` is a case where it is.

A counter that moves with every request has a whole window left. If that is a whole number of
seconds, as it is in the settings of a site, nothing is lacking: then the second that is named is
too early whenever the clock does not stand at a full second.

The number of seconds to wait does not suffer from this, because there the same full second is
taken away again: `keepsPromise`.
-/

namespace Gatehouse

/-- What a length of time lacks to a whole number of seconds. -/
def Duration.lacking (d : Duration) : Nat := d.ceilSecs * nanosPerSec - d

namespace Limiter

variable {l : Limiter} {client : String} {w : World MemoryStore}

/-! ## Sums of seconds -/

section Sums

variable {now : Instant} {left : Duration}

theorem endOf_of_le (h : now + left ≤ Duration.ofSecs maxSecs) :
    endOf now left = now.unixSecs + left.ceilSecs := by
  have hsum : now.unixSecs + left.ceilSecs ≤ maxSecs := unixSecs_add_ceilSecs_le h
  have hword : maxSecs = 9223372036854775807 := by decide
  have hsize : wordSize 64 = 18446744073709551616 := by decide
  have hrounded : roundedSecs left = left.ceilSecs := Nat.mod_eq_of_lt (by omega)
  rw [endOf, hrounded]
  omega

theorem endOf_le_maxSecs (now : Instant) (left : Duration) : endOf now left ≤ maxSecs :=
  Int.min_le_right _ _

/-- The end of a sum against the sum of the ends: what is cut off from one part is made up for by
what is added to the other, or it is not. -/
theorem secs_lt_iff (now : Instant) (left : Duration) :
    (now.unixSecs + left.ceilSecs) * nanosPerSec < now + left ↔
      left.lacking < now % nanosPerSec := by
  have key : ∀ now left : Nat,
      (now / 1000000000 + (left / 1000000000 + if left % 1000000000 = 0 then 0 else 1))
          * 1000000000 < now + left ↔
        (left / 1000000000 + if left % 1000000000 = 0 then 0 else 1) * 1000000000 - left
          < now % 1000000000 := by
    intro now left
    split <;> omega
  exact key now left

/-- The sum of the ends is less than a second off. -/
theorem secs_near (now : Instant) (left : Duration) :
    now + left < (now.unixSecs + left.ceilSecs + 1) * nanosPerSec ∧
      (now.unixSecs + left.ceilSecs) * nanosPerSec < now + left + nanosPerSec := by
  have key : ∀ now left : Nat,
      now + left < (now / 1000000000
          + (left / 1000000000 + if left % 1000000000 = 0 then 0 else 1) + 1) * 1000000000 ∧
        (now / 1000000000 + (left / 1000000000 + if left % 1000000000 = 0 then 0 else 1))
          * 1000000000 < now + left + 1000000000 := by
    intro now left
    split <;> omega
  exact key now left

theorem lacking_eq_zero_of_dvd (h : nanosPerSec ∣ left) : left.lacking = 0 := by
  have key : ∀ left : Nat, 1000000000 ∣ left →
      (left / 1000000000 + if left % 1000000000 = 0 then 0 else 1) * 1000000000 - left = 0 := by
    intro left h
    rw [if_pos (Nat.mod_eq_zero_of_dvd h)]
    omega
  exact key left h

end Sums

/-! ## What is named -/

/-- What it means, at an instant, that a second is named for the end of a counter. -/
structure Dates (now : Instant) (resetAt : Int) (expires : Instant) : Prop where
  /-- It is too early if it could not be written down, or if rounding up makes up for less than
  cutting off takes away. -/
  early_iff : resetAt * nanosPerSec < expires ↔
    Duration.ofSecs maxSecs < expires ∨ Duration.lacking (expires - now) < now % nanosPerSec
  /-- The next second is not too early, if it can be written down. -/
  lt_next (h : expires ≤ Duration.ofSecs maxSecs) : expires < (resetAt + 1) * nanosPerSec
  /-- The second before would have been too early. -/
  lt_add_second : resetAt * nanosPerSec < expires + nanosPerSec

theorem dates_endOf {now expires : Instant} (h : now ≤ expires) :
    Dates now (endOf now (expires - now)) expires := by
  obtain ⟨left, rfl⟩ : ∃ left : Duration, expires = now + left := Nat.exists_eq_add_of_le h
  have hleft : now + left - now = left := Nat.add_sub_cancel_left now left
  by_cases hfits : now + left ≤ Duration.ofSecs maxSecs
  · obtain ⟨hnext, hbefore⟩ := secs_near now left
    have hearly := secs_lt_iff now left
    obtain ⟨secs, hsecs⟩ : ∃ secs, secs = now.unixSecs + left.ceilSecs := ⟨_, rfl⟩
    rw [← hsecs] at hnext hbefore hearly
    rw [hleft, endOf_of_le hfits, ← Int.natCast_add, ← hsecs]
    constructor
    case early_iff =>
      rw [hleft, ← Int.natCast_mul, Int.ofNat_lt, hearly, or_iff_right (Nat.not_lt.mpr hfits)]
    case lt_next =>
      intro _
      rw [← Int.natCast_succ, ← Int.natCast_mul, Int.ofNat_lt]
      exact hnext
    case lt_add_second =>
      rw [← Int.natCast_mul, ← Int.natCast_add, Int.ofNat_lt]
      exact hbefore
  · have hlate : Duration.ofSecs maxSecs < now + left := Nat.lt_of_not_le hfits
    have hearly : endOf now left * nanosPerSec < (now + left : Nat) := by
      refine Int.lt_of_le_of_lt ?_ (Int.ofNat_lt.mpr hlate)
      rw [Duration.ofSecs, Int.natCast_mul]
      exact Int.mul_le_mul_of_nonneg_right (endOf_le_maxSecs now left) (Int.natCast_nonneg _)
    rw [hleft]
    constructor
    case early_iff => exact ⟨fun _ ↦ .inl hlate, fun _ ↦ hearly⟩
    case lt_next => exact fun hle ↦ absurd hle hfits
    case lt_add_second =>
      exact Int.lt_of_lt_of_le hearly (Int.le_add_of_nonneg_right (Int.natCast_nonneg _))

/-- Concluding a check names a second for the counter that it finds. -/
theorem dates_conclude {e : Entry} (h : w.store.live? w.now (l.key client) = some e) (n : Nat) :
    Dates w.now (l.conclude client n w).1.resetAt e.expires := by
  have hlive : w.now < e.expires := Entry.isLive_iff.mp (Option.filter_eq_some_iff.mp h).2
  have hverdict : (l.conclude client n w).1.resetAt = endOf w.now (e.expires - w.now) := by
    have hdecide : (l.conclude client n w).1
        = l.decide w.now n (.ok (w.store.ttl w.now (l.key client))) := rfl
    rw [hdecide, MemoryStore.ttl, h]
    rfl
  rw [hverdict]
  exact dates_endOf (Nat.le_of_lt hlive)

/-- A counter that has just been counted is there, and under the rolling policy it has a whole
window left. -/
theorem exists_live?_count (l : Limiter) (client : String) (w : World MemoryStore) :
    ∃ e, (l.count client w).2.store.live? w.now (l.key client) = some e ∧
      (l.policy = .rolling → e.expires = w.now + l.window) := by
  have hpos : w.now < w.now + l.window :=
    Nat.lt_add_of_pos_right (Nat.lt_of_lt_of_le (by decide) l.one_second_le)
  have hview : (l.count client w).2.store.live? w.now (l.key client)
      = (some (MemoryStore.counted (w.store.live? w.now (l.key client)) w.now l.window
          l.policy).2).filter fun e ↦ e.isLive w.now :=
    (MemoryStore.live?_increment _ _ (Nat.le_refl _)).trans (if_pos rfl)
  rw [hview]
  rcases MemoryStore.expires_counted w.store w.now (l.key client) l.window l.policy with
    hwindow | ⟨hrolling, hlater⟩
  · exact ⟨_, Entry.filter_isLive_of_lt (hwindow ▸ hpos), fun _ ↦ hwindow⟩
  · exact ⟨_, Entry.filter_isLive_of_lt hlater, fun h ↦ absurd h hrolling⟩

/-- A check always comes to a verdict. It is about the counter as it has just been counted. -/
theorem exists_check (l : Limiter) (client : String) (w : World MemoryStore) :
    ∃ n w', l.check client w = (.ok (l.conclude client n (l.count client w).2).1, w') ∧
      w'.now = w.now ∧ w'.store = (l.count client w).2.store :=
  ⟨_, _, check_of_ok rfl rfl, rfl, rfl⟩

/-! ## What is named for which counter -/

/-- Of every counter that a check meets, the second that is named says what it can. -/
structure DatesCounters (l : Limiter) (client : String) (w : World MemoryStore) : Prop where
  /-- However long ago a request was counted, its verdict is about the counter that is there. -/
  concluded (n : Nat) (e : Entry) (h : w.store.live? w.now (l.key client) = some e) :
    Dates w.now (l.conclude client n w).1.resetAt e.expires
  /-- A check that nothing comes in between of always comes to a verdict and leaves a counter. -/
  checked : ∃ d w' e, l.check client w = (.ok d, w') ∧ w'.now = w.now ∧
    w'.store.live? w.now (l.key client) = some e ∧ Dates w.now d.resetAt e.expires
  /-- With a window of whole seconds that every request begins anew, it is too early whenever the
  clock does not stand at a full second. -/
  rolling (hpolicy : l.policy = .rolling) (hwhole : nanosPerSec ∣ l.window)
    (hfits : w.now + l.window ≤ Duration.ofSecs maxSecs) :
    ∃ d w' e, l.check client w = (.ok d, w') ∧ w'.store.live? w.now (l.key client) = some e ∧
      (d.resetAt * nanosPerSec < e.expires ↔ ¬ nanosPerSec ∣ w.now)

/-- **The second that is named is at most a second too early**, and it is so if the fractions of the
clock and of the time left are such. -/
theorem datesCounters (l : Limiter) (client : String) (w : World MemoryStore) :
    l.DatesCounters client w := by
  obtain ⟨e, hlive, hexpires⟩ := exists_live?_count l client w
  obtain ⟨n, w', hcheck, hnow, hstore⟩ := exists_check l client w
  have hdates : Dates w.now (l.conclude client n (l.count client w).2).1.resetAt e.expires :=
    dates_conclude hlive n
  rw [← hstore] at hlive
  constructor
  case concluded => exact fun n e h ↦ dates_conclude h n
  case checked => exact ⟨_, w', e, hcheck, hnow, hlive, hdates⟩
  case rolling =>
    intro hpolicy hwhole hfits
    refine ⟨_, w', e, hcheck, hlive, ?_⟩
    have hleft : e.expires - w.now = l.window := by
      rw [hexpires hpolicy, Nat.add_sub_cancel_left]
    have hintime : ¬ Duration.ofSecs maxSecs < e.expires := by
      rw [hexpires hpolicy]
      exact Nat.not_lt.mpr hfits
    rw [hdates.early_iff, or_iff_right hintime, hleft, lacking_eq_zero_of_dvd hwhole,
      Nat.dvd_iff_mod_eq_zero]
    exact Nat.pos_iff_ne_zero

/-- The first request of a client, 900 ms behind a full second: its counter is over ten seconds
later, 900 ms behind a full second again, but the second that is named is that full one. -/
theorem resetAt_lt_expires :
    let l : Limiter := ⟨1, Duration.ofSecs 10, "rate_limit:", .rolling, Nat.one_pos, by decide⟩
    let now := Instant.ofMillis 1700000000900
    let w := World.start (MemoryStore.new now) now
    l.Reached "203.0.113.7" w ∧ w.now + l.window ≤ Duration.ofSecs maxSecs ∧
      ∃ d w' e, l.check "203.0.113.7" w = (.ok d, w') ∧
        w'.store.live? w.now (l.key "203.0.113.7") = some e ∧
        d.resetAt = 1700000010 ∧ e.expires = Instant.ofMillis 1700000010900 ∧
        d.resetAt * nanosPerSec < e.expires := by
  intro l now w
  have hverdict : (l.check "203.0.113.7" w).1 = .ok ⟨true, 1, 0, 1700000010⟩ := by decide +kernel
  exact ⟨.start now, by decide +kernel, ⟨true, 1, 0, 1700000010⟩, _,
    ⟨.counter 1, Instant.ofMillis 1700000010900⟩, Prod.ext hverdict rfl, by decide +kernel, rfl,
    rfl, by decide +kernel⟩

end Limiter

end Gatehouse
