import Mathlib.Data.List.Induction
import Gatehouse.Limiter
import Gatehouse.Proofs.Store.Live

/-!
# Checks that overlap

A check calls the store twice: it counts the request, and then it asks how long the counter has
left. Between the two steps of one check any steps of other checks may happen, and any amount of
time may pass. A *traffic* is a state of such a run: the world, the counts that were made, in
order, and the verdicts that have been given.

## Isolation

All clients share one store, whose sweeps may remove the counter of anybody. Nevertheless the
count that a check sees is a function of the instants at which its own client was counted before:
it is what a single counter makes of these instants. This is `Traffic.Isolated`, the invariant of
every run, and it is all that a statement about a particular policy needs to know of stores,
sweeps, other clients and the order of steps.

## Runs to which the program comes

A count has to note when its window is over, and the clock may not get there. Such a count ends the
program in the middle of the run, and there is no state after it: `Traffic.run?`. Wherever there is
one, it is the state that `Traffic.run` has on a clock that never ends, so the invariant is proved
of `run` and the limits are stated of `run?`. Which counts end the program is `run?_eq_none_iff`.
-/

namespace Gatehouse

/-! ## The two steps of a check -/

namespace Limiter

variable {σ : Type} [CounterStore σ]

/-- The first step of a check: count the request. -/
def count (l : Limiter) (client : String) : Run σ (Except StoreError Nat) :=
  Run.increment (l.key client) l.window l.policy

/-- The second step of a check: ask for the time left, and decide. -/
def conclude (l : Limiter) (client : String) (count : Nat) : Run σ Decision := do
  let ttl ← Run.ttl (l.key client)
  return l.decide (← Run.now) count ttl

/-- A check is its two steps with nothing in between. -/
theorem check_eq (l : Limiter) (client : String) :
    (l.check client : Run σ (Except StoreError Decision)) = do
      match ← l.count client with
      | .error e => return .error e
      | .ok n => return .ok (← l.conclude client n) := by
  funext w
  rw [check, count]
  rcases h : Run.increment (l.key client) l.window l.policy w with ⟨e | n, w'⟩
  · simp only [bind, StateT.bind, h]
  · simp only [bind, StateT.bind, h]
    rfl

theorem key_inj {l : Limiter} {a b : String} : l.key a = l.key b ↔ a = b := by
  rw [key, key]
  constructor
  · intro h
    have hlist := congrArg String.toList h
    rw [String.toList_append, String.toList_append, List.append_cancel_left_eq] at hlist
    exact String.toList_inj.mp hlist
  · rintro rfl
    rfl

end Limiter

/-! ## Traffic -/

structure Traffic.Count where
  client : String
  time : Instant
  count : Nat
  deriving DecidableEq, Repr

inductive Traffic.Step where
  | wait (d : Duration)
  /-- A check of a client begins, and counts. -/
  | count (client : String)
  /-- The check with the given place concludes. -/
  | conclude (place : Nat)
  deriving DecidableEq, Repr

/-- A state of a run of overlapping checks. -/
structure Traffic (σ : Type) where
  world : World σ
  counts : List Traffic.Count
  /-- The verdicts that were given. A check goes by the place of its count. -/
  verdicts : Table Nat Decision

namespace Traffic

section Steps

variable {σ : Type} [CounterStore σ]

/-- One step. A check that has not counted cannot conclude, and none concludes twice. -/
def step (l : Limiter) (t : Traffic σ) : Step → Traffic σ
  | .wait d => { t with world := (Run.advance d t.world).2 }
  | .count client =>
    match l.count client t.world with
    | (.ok n, w) => { t with world := w, counts := t.counts ++ [⟨client, t.world.now, n⟩] }
    | (.error _, w) => { t with world := w }
  | .conclude place =>
    match t.counts[place]?, t.verdicts.find? place with
    | some c, none =>
      let (d, w) := l.conclude c.client c.count t.world
      { t with world := w, verdicts := t.verdicts.insert place d }
    | _, _ => t

def after (l : Limiter) (t : Traffic σ) (steps : List Step) : Traffic σ := steps.foldl (step l) t

def start (store : σ) (now : Instant) : Traffic σ := ⟨World.start store now, [], Table.empty⟩

/-- The counts of the checks that were admitted. -/
def admitted (t : Traffic σ) : List Count :=
  (t.counts.zipIdx.filter fun e ↦ (t.verdicts.find? e.2).any Decision.admitted).map Prod.fst

end Steps

/-- The state after some steps, beginning with a new memory store. -/
def run (l : Limiter) (now : Instant) (steps : List Step) : Traffic MemoryStore :=
  (start (MemoryStore.new now) now).after l steps

/-- One step on a clock with a last instant. A count ends the program if it cannot be made. -/
def step? (last : Instant) (l : Limiter) (t : Traffic MemoryStore) :
    Step → Option (Traffic MemoryStore)
  | .count client =>
    (t.world.store.increment? last t.world.now (l.key client) l.window l.policy).map
      fun (n, store) ↦
        { t with
          world :=
            { t.world with
              store
              journal := t.world.journal ++ [.call ⟨.increment, l.key client⟩] }
          counts := t.counts ++ [⟨client, t.world.now, n⟩] }
  | s => some (t.step l s)

/-- The state after some steps, beginning with a new memory store, unless the program ends
before. -/
def run? (last : Instant) (l : Limiter) (now : Instant) (steps : List Step) :
    Option (Traffic MemoryStore) :=
  steps.foldlM (step? last l) (start (MemoryStore.new now) now)

/-- The instants at which a client was counted. -/
def times (client : String) (counts : List Count) : List Instant :=
  (counts.filter fun c ↦ c.client = client).map Count.time

@[simp] theorem times_nil (client : String) : times client [] = [] := rfl

theorem times_append (client : String) (counts later : List Count) :
    times client (counts ++ later) = times client counts ++ times client later := by
  rw [times, List.filter_append, List.map_append]
  rfl

theorem times_cons (client : String) (c : Count) (counts : List Count) :
    times client (c :: counts)
      = if c.client = client then c.time :: times client counts else times client counts := by
  by_cases h : c.client = client <;> simp [times, h]

end Traffic

/-! ## What a step does -/

namespace Traffic

variable {l : Limiter} {t : Traffic MemoryStore} {place : Nat} {c : Count}

/-- A count always succeeds. It changes the store, and it is noted. -/
theorem step_count (l : Limiter) (t : Traffic MemoryStore) (client : String) :
    t.step l (.count client) =
      { t with
        world :=
          { t.world with
            store := (t.world.store.increment t.world.now (l.key client) l.window l.policy).2
            journal := t.world.journal ++ [.call ⟨.increment, l.key client⟩] }
        counts := t.counts ++ [⟨client, t.world.now,
          (t.world.store.increment t.world.now (l.key client) l.window l.policy).1⟩] } := rfl

/-- The first conclusion of a check reads the store, and leaves a verdict. -/
theorem step_conclude (hc : t.counts[place]? = some c) (hopen : t.verdicts.find? place = none) :
    t.step l (.conclude place) =
      { t with
        world := { t.world with journal := t.world.journal ++ [.call ⟨.ttl, l.key c.client⟩] }
        verdicts := t.verdicts.insert place
          (l.decide t.world.now c.count
            (.ok (t.world.store.ttl t.world.now (l.key c.client)))) } := by
  simp only [step, hc, hopen]
  rfl

theorem counts_subset_step (l : Limiter) (t : Traffic MemoryStore) (s : Step) :
    t.counts ⊆ (t.step l s).counts := by
  cases s with
  | wait d => exact List.Subset.refl _
  | count client => exact List.subset_append_left ..
  | conclude place =>
    rw [step]
    split <;> exact List.Subset.refl _

/-- A count that a step adds is the count of this step. -/
theorem eq_of_mem_counts_step {s : Step} (hc : c ∈ (t.step l s).counts) (hnew : c ∉ t.counts) :
    ∃ client, s = .count client ∧ c = ⟨client, t.world.now,
      (t.world.store.increment t.world.now (l.key client) l.window l.policy).1⟩ := by
  cases s with
  | wait d => exact absurd hc hnew
  | count client =>
    rcases List.mem_append.mp hc with hc | hc
    · exact absurd hc hnew
    · exact ⟨client, rfl, List.mem_singleton.mp hc⟩
  | conclude place =>
    rw [step] at hc
    split at hc <;> exact absurd hc hnew

theorem exists_verdict (l : Limiter) (hc : t.counts[place]? = some c) :
    ∃ d, (t.step l (.conclude place)).verdicts.find? place = some d := by
  rcases hopen : t.verdicts.find? place with _ | d
  · rw [step_conclude hc hopen, Table.find?_insert, if_pos rfl]
    exact ⟨_, rfl⟩
  · simp only [step, hc, hopen]
    exact ⟨d, rfl⟩

end Traffic

/-! ## Steps on a clock that ends -/

namespace Traffic

variable {last now : Instant} {l : Limiter} {t t' : Traffic MemoryStore} {steps : List Step}

theorem step?_eq_some {s : Step} (h : t.step? last l s = some t') : t.step l s = t' := by
  cases s with
  | count client =>
    obtain ⟨r, hr, rfl⟩ := Option.map_eq_some_iff.mp h
    rw [step_count, MemoryStore.increment?_eq_some hr]
  | wait d => exact Option.some.inj h
  | conclude place => exact Option.some.inj h

theorem run?_concat (steps : List Step) (s : Step) :
    run? last l now (steps ++ [s]) = (run? last l now steps).bind fun t ↦ t.step? last l s := by
  simp only [run?, List.foldlM_append, List.foldlM_cons, List.foldlM_nil, bind_pure]
  rfl

theorem run_concat (l : Limiter) (now : Instant) (steps : List Step) (s : Step) :
    run l now (steps ++ [s]) = (run l now steps).step l s := by
  rw [run, after, List.foldl_append]
  rfl

/-- The state to which the program comes is the one to which it would come on a clock without
end. -/
theorem run?_eq_some (h : run? last l now steps = some t) : run l now steps = t := by
  induction steps using List.reverseRecOn generalizing t with
  | nil => exact Option.some.inj h
  | append_singleton steps s ih =>
    rw [run?_concat] at h
    obtain ⟨t', hrun, hstep⟩ := Option.bind_eq_some_iff.mp h
    rw [run_concat, ih hrun, step?_eq_some hstep]

end Traffic

/-! ## A counter of one's own -/

namespace Limiter

/-- What a count at an instant makes of the entry that a counter has. -/
def recount (l : Limiter) (before : Option Entry) (t : Instant) : Nat × Entry :=
  MemoryStore.counted (before.filter fun e ↦ e.isLive t) t l.window l.policy

/-- The entry of a counter that was counted at some instants and that nobody ever removes. -/
def tally (l : Limiter) (times : List Instant) : Option Entry :=
  times.foldl (fun before t ↦ some (l.recount before t).2) none

theorem tally_append_singleton (l : Limiter) (times : List Instant) (t : Instant) :
    l.tally (times ++ [t]) = some (l.recount (l.tally times) t).2 := by
  rw [tally, List.foldl_append]
  rfl

/-- What is counted is at least one, and the entry says so. -/
theorem exists_recount_eq (l : Limiter) (before : Option Entry) (t : Instant) :
    ∃ n ends, l.recount before t = (n + 1, ⟨.counter (n + 1), ends⟩) := by
  rw [recount]
  generalize (before.filter fun e ↦ e.isLive t) = found
  rcases found with _ | ⟨n | b, expires⟩
  · exact ⟨0, _, rfl⟩
  · exact ⟨n, _, rfl⟩
  · exact ⟨0, _, rfl⟩

/-- A counter of one's own has counted something. -/
theorem held_of_tally {l : Limiter} {times : List Instant} {e : Entry}
    (h : l.tally times = some e) : ∃ n, e.held = .counter (n + 1) := by
  induction times using List.reverseRecOn with
  | nil => cases h
  | append_singleton times t ih =>
    rw [tally_append_singleton, Option.some.injEq] at h
    obtain ⟨n, ends, hrecount⟩ := l.exists_recount_eq (l.tally times) t
    rw [← h, hrecount]
    exact ⟨n, rfl⟩

end Limiter

/-! ## Isolation -/

namespace Traffic

/-- No client notices another, and no sweep is noticed by anybody. -/
structure Isolated (l : Limiter) (t : Traffic MemoryStore) : Prop where
  /-- From now on, the store shows of a client's counter what the client's own counts made of it. -/
  counter : ∀ client later, t.world.now ≤ later →
    t.world.store.live? later (l.key client)
      = (l.tally (times client t.counts)).filter fun e ↦ e.isLive later
  /-- Every count is the one that a counter of one's own would have given. -/
  counted : ∀ i c, t.counts[i]? = some c →
    c.count = (l.recount (l.tally (times c.client (t.counts.take i))) c.time).1
  ordered : (t.counts.map Count.time).Pairwise (· ≤ ·)
  past : ∀ c ∈ t.counts, c.time ≤ t.world.now
  /-- A verdict is about the count of its check and about nothing else. -/
  decided : ∀ i d, t.verdicts.find? i = some d → ∃ c, t.counts[i]? = some c ∧
    d.admitted = decide (c.count ≤ l.limit) ∧ d.remaining = l.limit - c.count

namespace Isolated

variable {l : Limiter} {t : Traffic MemoryStore}

theorem start (l : Limiter) (now : Instant) :
    Isolated l (Traffic.start (MemoryStore.new now) now) where
  counter _ _ _ := rfl
  counted i c h := by simp [Traffic.start] at h
  ordered := List.Pairwise.nil
  past c h := by simp [Traffic.start] at h
  decided i d h := by simp [Traffic.start] at h

/-- Waiting: what expires meanwhile would not have been shown later anyway. -/
theorem wait (h : Isolated l t) (d : Duration) : Isolated l (t.step l (.wait d)) where
  counter client later hlater := h.counter client later (Nat.le_of_add_right_le hlater)
  counted := h.counted
  ordered := h.ordered
  past c hc := Nat.le_add_right_of_le (h.past c hc)
  decided := h.decided

/-- What the store shows of a counter before it is counted is what its own counts made of it. -/
theorem recount_eq (h : Isolated l t) (client : String) :
    l.recount (l.tally (times client t.counts)) t.world.now
      = MemoryStore.counted (t.world.store.live? t.world.now (l.key client)) t.world.now
          l.window l.policy := by
  rw [Limiter.recount, h.counter client _ (Nat.le_refl _)]

/-- Counting: the counter of the client moves on, all others stay as they are. -/
theorem count (h : Isolated l t) (client : String) : Isolated l (t.step l (.count client)) := by
  rw [step_count]
  constructor
  case counter =>
    intro other later hlater
    rw [MemoryStore.live?_increment _ _ hlater, times_append, times_cons]
    by_cases hc : other = client
    · subst hc
      rw [if_pos rfl, if_pos rfl, times_nil, Limiter.tally_append_singleton, h.recount_eq]
    -- another client has another key, and only the sweep could touch it
    · rw [if_neg (fun hk ↦ hc (Limiter.key_inj.mp hk)), if_neg (Ne.symm hc), times_nil,
        List.append_nil]
      exact h.counter other later hlater
  case counted =>
    intro i c hi
    -- counts that were there before, the new one, and places behind it
    rcases Nat.lt_trichotomy i t.counts.length with hlt | heq | hgt
    · rw [List.getElem?_append_left hlt] at hi
      rw [List.take_append_of_le_length (Nat.le_of_lt hlt)]
      exact h.counted i c hi
    · subst heq
      rw [List.getElem?_concat_length, Option.some.injEq] at hi
      subst hi
      rw [List.take_left, h.recount_eq]
      exact MemoryStore.increment_fst ..
    · rw [List.getElem?_eq_none (by rw [List.length_append]; exact hgt)] at hi
      exact absurd hi (by simp)
  case ordered =>
    rw [List.map_append, List.pairwise_append]
    refine ⟨h.ordered, List.pairwise_singleton _ _, ?_⟩
    intro a ha b hb
    obtain ⟨c, hc, rfl⟩ := List.mem_map.mp ha
    rw [List.mem_singleton.mp hb]
    exact h.past c hc
  case past =>
    intro c hc
    rcases List.mem_append.mp hc with hc | hc
    · exact h.past c hc
    · obtain rfl := List.mem_singleton.mp hc
      exact Nat.le_refl _
  case decided =>
    intro i d hd
    obtain ⟨c, hc, hverdict⟩ := h.decided i d hd
    exact ⟨c, List.getElem?_append_left (List.getElem?_eq_some_iff.mp hc).1 ▸ hc, hverdict⟩

/-- Concluding: nothing is counted, and the store is only read. -/
theorem conclude (h : Isolated l t) (place : Nat) : Isolated l (t.step l (.conclude place)) := by
  rcases hc : t.counts[place]? with _ | c
  · simpa only [step, hc] using h
  rcases hopen : t.verdicts.find? place with _ | d
  swap
  · simpa only [step, hc, hopen] using h
  rw [step_conclude hc hopen]
  refine ⟨h.counter, h.counted, h.ordered, h.past, ?_⟩
  intro i d hd
  rw [Table.find?_insert] at hd
  split at hd
  · next hi =>
    subst hi
    rw [← Option.some.inj hd]
    exact ⟨c, hc, rfl, rfl⟩
  · exact h.decided i d hd

theorem step (h : Isolated l t) (s : Step) : Isolated l (t.step l s) := by
  cases s with
  | wait d => exact h.wait d
  | count client => exact h.count client
  | conclude place => exact h.conclude place

/-- **Isolation.** It holds after every run. -/
theorem run (l : Limiter) (now : Instant) (steps : List Step) : Isolated l (run l now steps) := by
  rw [Traffic.run, after]
  induction steps using List.reverseRecOn with
  | nil => exact start l now
  | append_singleton steps s ih =>
    rw [List.foldl_append]
    exact ih.step s

/-! ### When the program ends -/

/-- A count ends the program if the clock does not last for a window from now, unless the policy
leaves the end of a counter alone that goes on. -/
theorem step?_eq_none_iff (h : Isolated l t) {last : Instant} {s : Step} :
    t.step? last l s = none ↔ ∃ client, s = .count client ∧ last < t.world.now + l.window ∧
      (l.policy = .fixed →
        (l.recount (l.tally (times client t.counts)) t.world.now).1 = 1) := by
  cases s with
  | wait d => simp [step?]
  | conclude place => simp [step?]
  | count client =>
    -- what the store shows of the counter is a counter that has counted something, or nothing
    have hfound : (∀ n t', t.world.store.live? t.world.now (l.key client) ≠ some ⟨.counter n, t'⟩) ↔
        (l.recount (l.tally (times client t.counts)) t.world.now).1 = 1 := by
      rw [h.recount_eq]
      rcases hlive : t.world.store.live? t.world.now (l.key client) with _ | ⟨n | b, expires⟩
      · simp [MemoryStore.counted]
      · rw [h.counter client _ (Nat.le_refl _), Option.filter_eq_some_iff] at hlive
        obtain ⟨m, hheld⟩ := Limiter.held_of_tally hlive.1
        obtain rfl : n = m + 1 := Held.counter.inj hheld
        simp [MemoryStore.counted]
      · simp [MemoryStore.counted]
    rw [step?, Option.map_eq_none_iff, MemoryStore.increment?_eq_none_iff, hfound]
    simp

/-- The place of a check that has not counted yet has no verdict. -/
theorem find?_length (h : Isolated l t) : t.verdicts.find? t.counts.length = none := by
  rcases hd : t.verdicts.find? t.counts.length with _ | d
  · rfl
  · obtain ⟨c, hc, -⟩ := h.decided _ d hd
    rw [List.getElem?_eq_none (Nat.le_refl _)] at hc
    exact absurd hc (by simp)

/-- What a check leaves behind that nothing comes in between of. -/
theorem after_check (h : Isolated l t) (client : String) :
    t.after l [.count client, .conclude t.counts.length] =
      let counted := t.world.store.increment t.world.now (l.key client) l.window l.policy
      { world :=
          { t.world with
            store := counted.2
            journal := t.world.journal ++ [.call ⟨.increment, l.key client⟩] ++
              [.call ⟨.ttl, l.key client⟩] }
        counts := t.counts ++ [⟨client, t.world.now, counted.1⟩]
        verdicts := t.verdicts.insert t.counts.length
          (l.decide t.world.now counted.1 (.ok (counted.2.ttl t.world.now (l.key client)))) } := by
  have hafter : t.after l [.count client, .conclude t.counts.length]
      = (t.step l (.count client)).step l (.conclude t.counts.length) := rfl
  have hcounted : (t.step l (.count client)).counts[t.counts.length]? = some ⟨client, t.world.now,
      (t.world.store.increment t.world.now (l.key client) l.window l.policy).1⟩ := by
    rw [step_count, List.getElem?_concat_length]
  rw [hafter, step_conclude hcounted (by rw [step_count]; exact h.find?_length), step_count]

/-- A check that nothing comes in between of is a check as the limiter makes it: the same world is
left behind, and the same verdict is given. -/
theorem check (h : Isolated l t) {last : Instant} {client : String} {t' : Traffic MemoryStore}
    (ht' : t.step? last l (.count client) = some t') :
    ∃ d w, l.check client t.world = (.ok d, w) ∧
      (t'.step l (.conclude t.counts.length)).world = w ∧
      (t'.step l (.conclude t.counts.length)).verdicts.find? t.counts.length = some d := by
  obtain rfl := step?_eq_some ht'
  have hafter : (t.step l (.count client)).step l (.conclude t.counts.length)
      = t.after l [.count client, .conclude t.counts.length] := rfl
  rw [hafter, h.after_check, Table.find?_insert, if_pos rfl, Limiter.check_eq]
  exact ⟨_, _, rfl, rfl, rfl⟩

end Isolated

/-- **The end of a run.** The program does not come to the end of a run if some count in it begins a
window that the clock does not last for. Under the rolling policy every count begins one, under the
fixed policy only the first of a window does. -/
theorem run?_eq_none_iff (last : Instant) (l : Limiter) (now : Instant) (steps : List Step) :
    run? last l now steps = none ↔ ∃ c ∈ (run l now steps).counts,
      last < c.time + l.window ∧ (l.policy = .fixed → c.count = 1) := by
  induction steps using List.reverseRecOn with
  | nil => simp [run?, run, after, start]
  | append_singleton steps s ih =>
    have hisolated := Isolated.run l now steps
    rw [run?_concat, run_concat, Option.bind_eq_none_iff]
    constructor
    · intro hnone
      rcases hrun : run? last l now steps with _ | t
      · obtain ⟨c, hc, hends⟩ := ih.mp hrun
        exact ⟨c, counts_subset_step l _ s hc, hends⟩
      · have hstep := hnone t hrun
        rw [← run?_eq_some hrun] at hstep
        obtain ⟨client, rfl, hlast, hfirst⟩ := hisolated.step?_eq_none_iff.mp hstep
        rw [step_count]
        refine ⟨_, List.mem_append_right _ (List.mem_singleton_self _), hlast, fun hfixed ↦ ?_⟩
        rw [← hfirst hfixed, hisolated.recount_eq]
        rfl
    · rintro ⟨c, hc, hends⟩ t hrun
      have hbefore : c ∉ (run l now steps).counts := fun hmem ↦ by
        rw [ih.mpr ⟨c, hmem, hends⟩] at hrun
        cases hrun
      rw [← run?_eq_some hrun]
      obtain ⟨client, rfl, rfl⟩ := eq_of_mem_counts_step hc hbefore
      refine hisolated.step?_eq_none_iff.mpr ⟨client, rfl, hends.1, fun hfixed ↦ ?_⟩
      rw [← hends.2 hfixed, hisolated.recount_eq]
      rfl

end Traffic

end Gatehouse
