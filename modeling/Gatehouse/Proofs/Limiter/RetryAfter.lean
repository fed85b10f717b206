import Mathlib.Logic.Relation
import Gatehouse.Proofs.Layer.FailsClosed
import Gatehouse.Proofs.Limiter.Traffic
import Gatehouse.Proofs.Store.Ideal

/-!
# Coming back after the time that was named

A client that is turned away is told after how many seconds to come back. **`keepsPromise`** says
that this can be relied on: whoever sends nothing for that long is admitted, and has the rest of a
whole window's requests left, whatever others do in the meantime.

## What may happen in the meantime

`Elsewhere` is what has no part in the client's counter: time passes, other clients are counted,
checks conclude, and the store is told anything that does not write to the counter's key. Sweeps
come with the writes. `Reached` allows in addition that the client itself is counted, and is what
may have happened before.

## Why the time is long enough

At every reached state the counter is over within a window from now, under either policy:
`endsInTime`. So the time left can be written down, if the end of a window from now can. It is
rounded up, and the clock that it is added to and the clock that it is taken from are cut off alike,
so that nothing is lost in between: `ceilSecs_le_retryAfter`. At the instant of its expiry a counter
is already gone.
-/

namespace Gatehouse

/-! ## Commands and keys -/

/-- A command may change what a key holds. -/
def StoreCommand.Writes (key : String) : StoreCommand → Prop
  | .increment k _ _ => k = key
  | .set k _ _ => k = key
  | .deleteByPattern pattern => Glob.isMatch pattern key = true
  | _ => False

/-- The other commands leave the key as it is, now and later. -/
theorem MemoryStore.live?_obey {s : MemoryStore} {now later : Instant} {c : StoreCommand}
    {key : String} (hc : ¬ c.Writes key) (h : now ≤ later) :
    (s.obey now c).2.live? later key = s.live? later key := by
  cases c with
  | increment k window policy => exact (live?_increment _ _ h).trans (if_neg (Ne.symm hc))
  | set k value ttl => exact (live?_set _ _ h).trans (if_neg (Ne.symm hc))
  | deleteByPattern pattern => exact (live?_deleteByPattern now pattern).trans (if_neg hc)
  | get k => exact live?_get h
  | purgeExpired => exact live?_purgeExpired h
  | ttl | contains | size | isEmpty => rfl

namespace Limiter

variable {l : Limiter} {client : String} {w w' : World MemoryStore} {later : Instant}

/-! ## What may happen -/

/-- What has no part in a client's counter. -/
inductive Elsewhere (l : Limiter) (client : String) (w : World MemoryStore) :
    World MemoryStore → Prop
  /-- Time may pass. The journal and the random numbers are of no account. -/
  | wait {w' : World MemoryStore} (hstore : w'.store = w.store) (hnow : w.now ≤ w'.now) :
    Elsewhere l client w w'
  | count {other : String} (hother : other ≠ client) : Elsewhere l client w (l.count other w).2
  | conclude (anybody : String) (n : Nat) : Elsewhere l client w (l.conclude anybody n w).2
  | obey {c : StoreCommand} (hc : ¬ c.Writes (l.key client)) :
    Elsewhere l client w { w with store := (w.store.obey w.now c).2 }

/-- Any number of such things, one after the other. -/
def Meanwhile (l : Limiter) (client : String) : World MemoryStore → World MemoryStore → Prop :=
  Relation.ReflTransGen (l.Elsewhere client)

/-- What may have happened since the store was made. -/
inductive Reached (l : Limiter) (client : String) : World MemoryStore → Prop
  | start (t : Instant) : Reached l client (World.start (MemoryStore.new t) t)
  | count {w : World MemoryStore} (h : Reached l client w) : Reached l client (l.count client w).2
  | elsewhere {w w' : World MemoryStore} (h : Reached l client w)
    (hstep : l.Elsewhere client w w') : Reached l client w'

theorem Elsewhere.advance (w : World MemoryStore) (d : Duration) :
    l.Elsewhere client w (Run.advance d w).2 := .wait rfl (Nat.le_add_right _ _)

/-- What a limiter makes of the world: it counts the client of the request, and what happens next
is up to the service behind it. -/
theorem exists_inside (l : Limiter) (next : Service MemoryStore) (req : Request)
    (w : World MemoryStore) :
    ∃ inside : World MemoryStore, ((Service.limited l next req w).2 = inside ∨
      (Service.limited l next req w).2 = (next req inside).2) ∧
        inside.store = (l.count (Context.of req).clientIp w).2.store ∧ inside.now = w.now := by
  rcases Nat.lt_or_ge l.limit
    (w.store.increment w.now (l.key (Context.of req).clientIp) l.window l.policy).1 with hlt | hle
  · have hlimited : Service.limited l next req w = _ := Service.limited_of_lt rfl rfl hlt next
    exact ⟨_, .inl (Prod.ext_iff.mp hlimited).2, rfl, rfl⟩
  · have hlimited : Service.limited l next req w = _ := Service.limited_of_le rfl rfl hle next
    exact ⟨_, .inr (Prod.ext_iff.mp hlimited).2, rfl, rfl⟩

/-- So any request may have been one of those that led here, if what is behind the limiter may. -/
theorem Reached.limited {next : Service MemoryStore} {req : Request}
    (hnext : ∀ w, l.Reached client w → l.Reached client (next req w).2)
    (h : l.Reached client w) : l.Reached client (Service.limited l next req w).2 := by
  obtain ⟨inside, hworld, hstore, hnow⟩ := exists_inside l next req w
  have hinside : l.Reached client inside := by
    refine .elsewhere (w := (l.count (Context.of req).clientIp w).2) ?_
      (.wait hstore (Nat.le_of_eq hnow.symm))
    by_cases hother : (Context.of req).clientIp = client
    · exact hother ▸ h.count
    · exact h.elsewhere (.count hother)
  rcases hworld with h | h <;> rw [h]
  · exact hinside
  · exact hnext inside hinside

/-! ## The view of a counter -/

/-- From one state to the other time goes on, and the later states of a counter are the same. -/
structure Unmoved (l : Limiter) (client : String) (w w' : World MemoryStore) : Prop where
  now_le : w.now ≤ w'.now
  live?_eq : ∀ later, w'.now ≤ later →
    w'.store.live? later (l.key client) = w.store.live? later (l.key client)

theorem Elsewhere.unmoved (h : l.Elsewhere client w w') : l.Unmoved client w w' := by
  cases h with
  | wait hstore hnow => exact ⟨hnow, fun later _ ↦ by rw [hstore]⟩
  | count hother =>
    refine ⟨Nat.le_refl _, fun later hlater ↦ ?_⟩
    exact (MemoryStore.live?_increment _ _ hlater).trans
      (if_neg fun hkey ↦ hother (key_inj.mp hkey).symm)
  | conclude anybody n => exact ⟨Nat.le_refl _, fun _ _ ↦ rfl⟩
  | obey hc => exact ⟨Nat.le_refl _, fun later hlater ↦ MemoryStore.live?_obey hc hlater⟩

theorem Meanwhile.unmoved (h : l.Meanwhile client w w') : l.Unmoved client w w' := by
  induction h with
  | refl => exact ⟨Nat.le_refl _, fun _ _ ↦ rfl⟩
  | tail _ hstep ih =>
    have hlast := hstep.unmoved
    exact ⟨Nat.le_trans ih.now_le hlast.now_le, fun later hlater ↦
      (hlast.live?_eq later hlater).trans (ih.live?_eq later (Nat.le_trans hlast.now_le hlater))⟩

/-- The counter of a client, if there is one, is over within a window from now. -/
def EndsInTime (l : Limiter) (client : String) (w : World MemoryStore) : Prop :=
  ∀ e, w.store.live? w.now (l.key client) = some e → e.expires ≤ w.now + l.window

/-- Counting sets the expiry a window from now, or leaves it. -/
theorem EndsInTime.count (h : l.EndsInTime client w) :
    l.EndsInTime client (l.count client w).2 := by
  intro e he
  have hview : (l.count client w).2.store.live? w.now (l.key client)
      = (some (MemoryStore.counted (w.store.live? w.now (l.key client)) w.now l.window
          l.policy).2).filter fun e ↦ e.isLive w.now :=
    (MemoryStore.live?_increment _ _ (Nat.le_refl _)).trans (if_pos rfl)
  obtain ⟨hentry, -⟩ := Option.filter_eq_some_iff.mp (hview.symm.trans he)
  rw [← Option.some.inj hentry]
  rcases hbefore : w.store.live? w.now (l.key client) with _ | ⟨n | b, expires⟩
  · exact Nat.le_refl _
  · simp only [MemoryStore.counted]
    split
    · exact Nat.le_refl _
    · exact h _ hbefore
  · exact Nat.le_refl _

theorem EndsInTime.elsewhere (h : l.EndsInTime client w) (hstep : l.Elsewhere client w w') :
    l.EndsInTime client w' := by
  intro e he
  have hunmoved := hstep.unmoved
  rw [hunmoved.live?_eq _ (Nat.le_refl _), ← MemoryStore.live?_later hunmoved.now_le] at he
  obtain ⟨hbefore, -⟩ := Option.filter_eq_some_iff.mp he
  exact Nat.le_trans (h e hbefore) (Nat.add_le_add_right hunmoved.now_le _)

/-- **No counter outlasts a window**, under either policy. -/
theorem Reached.endsInTime (h : l.Reached client w) : l.EndsInTime client w := by
  induction h with
  | start t => exact nofun
  | count _ ih => exact ih.count
  | elsewhere _ hstep ih => exact ih.elsewhere hstep

/-! ## The time that is named -/

/-- The instant at which a window from now is over can be written down in seconds. -/
def Fits (l : Limiter) (now : Instant) : Prop := now.unixSecs + l.window.ceilSecs ≤ maxSecs

theorem unixSecs_add_ceilSecs_le {now : Instant} {d : Duration} {last : Nat}
    (h : now + d ≤ Duration.ofSecs last) : now.unixSecs + d.ceilSecs ≤ last := by
  have key : ∀ now d last : Nat, now + d ≤ last * 1000000000 →
      now / 1000000000 + (d / 1000000000 + if d % 1000000000 = 0 then 0 else 1) ≤ last := by
    intro now d last h
    split <;> omega
  exact key now d last h

/-- It can, if it is no later than the last second that can be written down. -/
theorem fits_of_le {now : Instant} (h : now + l.window ≤ Duration.ofSecs maxSecs) : l.Fits now :=
  unixSecs_add_ceilSecs_le h

theorem ceilSecs_le_of_le {d d' : Duration} (h : d ≤ d') : d.ceilSecs ≤ d'.ceilSecs := by
  have key : ∀ n n' : Nat, n ≤ n' →
      n / 1000000000 + (if n % 1000000000 = 0 then 0 else 1)
        ≤ n' / 1000000000 + if n' % 1000000000 = 0 then 0 else 1 := by
    intro n n' h
    split <;> split <;> omega
  exact key d d' h

/-- The seconds that are named are no fewer than those that the time left has, rounded up. -/
theorem ceilSecs_le_retryAfter {d : Decision} {now : Instant} {left : Duration}
    (hreset : d.resetAt = endOf now left) (hleft : left ≤ l.window) (hfits : l.Fits now) :
    (left.ceilSecs : Int) ≤ d.retryAfter now.unixSecs := by
  have hsum : now.unixSecs + left.ceilSecs ≤ maxSecs :=
    Nat.le_trans (Nat.add_le_add_left (ceilSecs_le_of_le hleft) _) hfits
  have hword : maxSecs = 9223372036854775807 := by decide
  have hsize : wordSize 64 = 18446744073709551616 := by decide
  have hrounded : roundedSecs left = left.ceilSecs := Nat.mod_eq_of_lt (by omega)
  have hend : d.resetAt = now.unixSecs + left.ceilSecs := by
    rw [hreset, endOf, hrounded]
    omega
  have hwait : d.resetAt - now.unixSecs = left.ceilSecs := by omega
  rw [Decision.retryAfter, hwait, wrapSigned_of_fits (by omega) (by omega)]
  exact Int.le_max_left _ _

theorem exists_nat_retryAfter (d : Decision) (now : Int) : ∃ r : Nat, d.retryAfter now = r :=
  Int.eq_ofNat_of_zero_le (Int.le_trans (by decide) (Decision.one_le_retryAfter d now))

/-- When the time that is named is over, so is the counter. -/
theorem live?_eq_none_of_retryAfter (hw : l.EndsInTime client w) (hfits : l.Fits w.now) {n r : Nat}
    (hr : (l.conclude client n w).1.retryAfter w.now.unixSecs = r)
    (hlater : w.now + Duration.ofSecs r ≤ later) :
    w.store.live? later (l.key client) = none := by
  rw [← MemoryStore.live?_later (Nat.le_trans (Nat.le_add_right _ _) hlater)]
  rcases he : w.store.live? w.now (l.key client) with _ | e
  · rfl
  obtain ⟨left, hleft⟩ : ∃ left : Duration, left = e.expires - w.now := ⟨_, rfl⟩
  have hwindow : left ≤ l.window := hleft ▸ Nat.sub_le_iff_le_add'.mpr (hw e he)
  have hreset : (l.conclude client n w).1.resetAt = endOf w.now left := by
    have hverdict : (l.conclude client n w).1
        = l.decide w.now n (.ok (w.store.ttl w.now (l.key client))) := rfl
    rw [hverdict, MemoryStore.ttl, he, hleft]
    rfl
  have hceil : left.ceilSecs ≤ r := by
    have hle := ceilSecs_le_retryAfter hreset hwindow hfits
    rw [hr] at hle
    exact Int.ofNat_le.mp hle
  refine Entry.filter_isLive_of_le ?_
  calc e.expires ≤ w.now + left := Nat.sub_le_iff_le_add'.mp (Nat.le_of_eq hleft.symm)
    _ ≤ w.now + left.ceilSecs * nanosPerSec := Nat.add_le_add_left left.le_ceilSecs _
    _ ≤ w.now + r * nanosPerSec := Nat.add_le_add_left (Nat.mul_le_mul_right _ hceil) _
    _ ≤ later := hlater

/-! ## The promise -/

/-- The next request of a client is admitted, and it is the first one of a window. -/
structure Welcomes (l : Limiter) (client : String) (w : World MemoryStore) : Prop where
  admits : ∃ d w', l.check client w = (.ok d, w') ∧ d.admitted = true ∧ d.remaining = l.limit - 1
  /-- It is handed on, and its response reports what is left. -/
  serves : ∀ (next : Service MemoryStore) (req : Request), (Context.of req).clientIp = client →
    ∃ (inside : World MemoryStore) (headers : Headers) (reset : Int),
      Service.limited l next req w
        = ({ (next req inside).1 with headers }, (next req inside).2) ∧
      headers.Reports l.limit (l.limit - 1) reset

theorem welcomes_of_live?_eq_none (h : w.store.live? w.now (l.key client) = none) :
    l.Welcomes client w := by
  obtain ⟨s, hs⟩ : ∃ s, CounterStore.increment w.now (l.key client) l.window l.policy w.store
      = (.ok 1, s) := by
    refine ⟨_, Prod.ext (congrArg Except.ok ?_) rfl⟩
    rw [MemoryStore.increment_fst, h]
    rfl
  constructor
  case admits => exact ⟨_, _, check_of_ok hs rfl, decide_eq_true l.limit_pos, rfl⟩
  case serves =>
    rintro next req rfl
    exact ⟨_, _, _, Service.limited_of_le hs rfl l.limit_pos next, Decision.reports_report _ _⟩

/-- Who waits for so many seconds and sends nothing is welcome. -/
def Promises (l : Limiter) (client : String) (w : World MemoryStore) (r : Nat) : Prop :=
  ∀ later, l.Meanwhile client w later → w.now + Duration.ofSecs r ≤ later.now →
    l.Welcomes client later

/-- What is named to a client is a promise. -/
structure KeepsPromise (l : Limiter) (client : String) (w : World MemoryStore) : Prop where
  /-- However long ago a request was counted, what its verdict names holds from the verdict on. -/
  concluded : ∀ n, ∃ r : Nat,
    (l.conclude client n w).1.retryAfter (l.conclude client n w).2.now.unixSecs = r ∧
      l.Promises client (l.conclude client n w).2 r
  /-- A request that is turned away is answered with what its verdict names. -/
  answered : ∀ d w', l.check client w = (.ok d, w') → d.admitted = false →
    ∀ (next : Service MemoryStore) (req : Request), (Context.of req).clientIp = client →
      ∃ r : Nat,
        (Service.limited l next req w).1.status = .tooManyRequests ∧
        (Service.limited l next req w).1.headers.values "retry-after" = [utf8 r.repr] ∧
        l.Promises client (Service.limited l next req w).2 r

theorem promises_of_retryAfter (hw : l.EndsInTime client w) (hfits : l.Fits w.now) {n r : Nat}
    (hr : (l.conclude client n w).1.retryAfter w.now.unixSecs = r)
    (hstore : w'.store = w.store) (hnow : w'.now = w.now) : l.Promises client w' r := by
  intro later hmeanwhile hlater
  have hunmoved := hmeanwhile.unmoved
  refine welcomes_of_live?_eq_none ?_
  rw [hunmoved.live?_eq _ (Nat.le_refl _), hstore]
  exact live?_eq_none_of_retryAfter hw hfits hr (hnow ▸ hlater)

/-- **Whoever comes back in time is admitted.** In every state that the checks of a limiter and any
other use of its store may lead to, the time that is named to a client is a promise. -/
theorem keepsPromise (l : Limiter) (client : String) (w : World MemoryStore)
    (hw : l.Reached client w) (hfits : l.Fits w.now) : l.KeepsPromise client w := by
  constructor
  case concluded =>
    intro n
    obtain ⟨r, hr⟩ := exists_nat_retryAfter (l.conclude client n w).1 w.now.unixSecs
    exact ⟨r, hr, promises_of_retryAfter hw.endsInTime hfits hr rfl rfl⟩
  case answered =>
    rintro d w' hcheck hrefused next req rfl
    set client := (Context.of req).clientIp
    -- the verdict is the conclusion of a check that has just been counted
    set n := (w.store.increment w.now (l.key client) l.window l.policy).1
    set counted := (l.count client w).2
    have hd : (l.conclude client n counted).1 = d := by
      have hok : l.check client w = (.ok (l.conclude client n counted).1, _) := check_of_ok rfl rfl
      exact Except.ok.inj (congrArg Prod.fst (hok.symm.trans hcheck))
    rw [← hd] at hrefused
    have hlt : l.limit < n := Nat.lt_of_not_le (of_decide_eq_false hrefused)
    have hlimited : Service.limited l next req w = _ := Service.limited_of_lt rfl rfl hlt next
    obtain ⟨r, hr⟩ := exists_nat_retryAfter (l.conclude client n counted).1 w.now.unixSecs
    refine ⟨r, ?_, ?_, ?_⟩ <;> rw [hlimited]
    · rfl
    · rw [Service.values_overLimit, if_pos rfl]
      exact congrArg (fun wait : Int ↦ [utf8 wait.repr]) hr
    · exact promises_of_retryAfter hw.endsInTime.count hfits hr rfl rfl

/-- One request in a second and a half. The second one comes after 300 ms, when 1.2 s are left, and
is told to come back after two seconds. -/
theorem keepsPromise_twoSeconds :
    let l : Limiter := ⟨1, Duration.ofMillis 1500, "rate_limit:", .fixed, Nat.one_pos, by decide⟩
    let req : Request := ⟨.get, ⟨"/", none⟩, [], none, none, some ⟨"", "203.0.113.7", "", ""⟩, none⟩
    let handler : Service MemoryStore := fun _ ↦ pure (.ofStatus .ok)
    let serve := Service.limited l handler req
    let begin := World.start (MemoryStore.new (Duration.ofMillis 700)) (Duration.ofMillis 700)
    let w := (Run.advance (Duration.ofMillis 300) (serve begin).2).2
    l.Reached "203.0.113.7" w ∧ l.Fits w.now ∧ l.KeepsPromise "203.0.113.7" w ∧
      (serve begin).1.status = .ok ∧ (serve w).1.status = .tooManyRequests ∧
      (serve w).1.headers.values "retry-after" = [utf8 "2"] ∧
      (serve (Run.advance (Duration.ofSecs 2) (serve w).2).2).1.status = .ok := by
  intro l req handler serve begin w
  have hw : l.Reached "203.0.113.7" w :=
    .elsewhere (.limited (fun _ h ↦ h) (.start _)) (.advance _ _)
  have hfits : l.Fits w.now := fits_of_le (by decide +kernel)
  exact ⟨hw, hfits, keepsPromise l "203.0.113.7" w hw hfits, by decide +kernel, by decide +kernel,
    by decide +kernel, by decide +kernel⟩

end Limiter

end Gatehouse
