import Mathlib.Data.List.Infix
import Mathlib.Data.List.TakeWhile
import Gatehouse.Proofs.Limiter.Traffic

/-!
# What a fixed window admits

Under the fixed policy only the first count of a counter sets its expiry, so the checks of a client
fall into windows: one begins with the first check that the window before it does not take in. The
count that a check sees is its position in its window, whatever the other clients do and whenever
the store is swept.

## Two windows

A half-open interval of the length of a window can meet two windows of a client and not three, for
the second begins inside of it and the third not before the interval is over. So at most twice the
limit is admitted in it.

Cutting into windows is a matter of lists whose members have times, `windows`. What a counter makes
of a window is proved for a single counter, `Limiter.tally_window`, and goes over to all clients of
a run by `Traffic.Isolated`.
-/

namespace Gatehouse

/-! ## Windows -/

section Windows

variable {α : Type} {time : α → Instant} {window : Duration} {limit : Nat} {xs g : List α}

/-- Cut what happens, in the order of time, into windows: each takes in what happens less than the
length of a window after its first member. -/
def windows (time : α → Instant) (window : Duration) : List α → List (List α)
  | [] => []
  | first :: rest =>
    (first :: rest.takeWhile fun x ↦ time x < time first + window) ::
      windows time window (rest.dropWhile fun x ↦ time x < time first + window)
termination_by xs => xs.length
decreasing_by exact Nat.lt_succ_of_le (List.dropWhile_sublist _).length_le

theorem flatten_windows (time : α → Instant) (window : Duration) (xs : List α) :
    (windows time window xs).flatten = xs := by
  fun_induction windows with
  | case1 => rfl
  | case2 first rest ih =>
    rw [List.flatten_cons, ih, List.cons_append, List.takeWhile_append_dropWhile]

theorem nil_notMem_windows (time : α → Instant) (window : Duration) (xs : List α) :
    [] ∉ windows time window xs := by
  fun_induction windows with
  | case1 => exact List.not_mem_nil
  | case2 first rest ih => simpa using ih

theorem sublist_of_mem_windows (hg : g ∈ windows time window xs) : g.Sublist xs := by
  have hsub := List.sublist_flatten_of_mem hg
  rwa [flatten_windows] at hsub

theorem windows_map {β : Type} (f : β → α) (ys : List β) :
    windows time window (ys.map f) = (windows (time ∘ f) window ys).map (List.map f) := by
  induction ys using windows.induct (time ∘ f) window with
  | case1 => simp [windows]
  | case2 first rest ih =>
    rw [List.map_cons, windows, windows, List.map_cons, ← ih, List.takeWhile_map,
      List.dropWhile_map]
    rfl

/-- What a window takes in besides its first member happens before it is over. -/
theorem lt_of_mem_windows {first : α} {rest : List α}
    (hg : first :: rest ∈ windows time window xs) :
    ∀ x ∈ rest, time x < time first + window := by
  fun_induction windows with
  | case1 => exact absurd hg List.not_mem_nil
  | case2 first' rest' ih =>
    rcases List.mem_cons.mp hg with heq | hg
    · obtain ⟨rfl, rfl⟩ := List.cons.inj heq
      intro x hx
      simpa using List.mem_takeWhile_imp hx
    · exact ih hg

/-- In the order of time, what comes after the first late member is late. -/
theorem le_of_mem_dropWhile {b : Instant} (hsorted : xs.Pairwise fun x y ↦ time x ≤ time y) :
    ∀ x ∈ xs.dropWhile (fun x ↦ time x < b), b ≤ time x := by
  induction xs with
  | nil => simp
  | cons y ys ih =>
    obtain ⟨hle, hsorted⟩ := List.pairwise_cons.mp hsorted
    rw [List.dropWhile_cons]
    split
    · exact ih hsorted
    · next hlate =>
      have hb : b ≤ time y := by simpa using hlate
      intro x hx
      rcases List.mem_cons.mp hx with rfl | hx
      · exact hb
      · exact Nat.le_trans hb (hle x hx)

/-- A window comes after those before it are over. -/
theorem pairwise_windows (hsorted : xs.Pairwise fun x y ↦ time x ≤ time y) :
    (windows time window xs).Pairwise fun g g' ↦
      ∀ x ∈ g.head?, ∀ x' ∈ g', time x + window ≤ time x' := by
  fun_induction windows with
  | case1 => exact List.Pairwise.nil
  | case2 first rest ih =>
    have hrest := (List.pairwise_cons.mp hsorted).2
    refine List.pairwise_cons.mpr ⟨?_, ih (hrest.sublist (List.dropWhile_sublist _))⟩
    intro g' hg' x hx x' hx'
    obtain rfl : first = x := Option.some.inj hx
    exact le_of_mem_dropWhile hrest x' ((sublist_of_mem_windows hg').subset hx')

/-! ## Intervals -/

theorem append_dropWhile (time : α → Instant) (b : Instant) (first : α) (rest : List α) :
    (first :: rest.takeWhile fun x ↦ time x < b) ++ rest.dropWhile (fun x ↦ time x < b)
      = first :: rest := by
  rw [List.cons_append, List.takeWhile_append_dropWhile]

/-- If no window has more than so many members of a kind, neither has an interval of the length of a
window that nothing comes before: it meets the first window alone. -/
theorem length_filter_le_of_forall_le {p : α → Bool} {a : Instant}
    (hsorted : xs.Pairwise fun x y ↦ time x ≤ time y)
    (hwindow : ∀ g ∈ windows time window xs, (g.filter p).length ≤ limit)
    (hnone : ∀ x ∈ xs, a ≤ time x) :
    (xs.filter fun x ↦ p x ∧ time x < a + window).length ≤ limit := by
  cases xs with
  | nil => exact Nat.zero_le _
  | cons first rest =>
    have hlate : ∀ x ∈ rest.dropWhile (fun x ↦ time x < time first + window),
        ¬ decide (p x ∧ time x < a + window) = true := by
      intro x hx hin
      have hend : time first + window ≤ time x :=
        le_of_mem_dropWhile (List.pairwise_cons.mp hsorted).2 x hx
      have hbegin : a + window ≤ time first + window :=
        Nat.add_le_add_right (hnone first List.mem_cons_self) window
      exact Nat.not_lt.mpr (Nat.le_trans hbegin hend) (of_decide_eq_true hin).2
    rw [← append_dropWhile time (time first + window) first rest, List.filter_append,
      List.filter_eq_nil_iff.mpr hlate, List.append_nil]
    rw [windows] at hwindow
    refine Nat.le_trans (List.Sublist.length_le ?_) (hwindow _ List.mem_cons_self)
    exact List.monotone_filter_right _ fun x hx ↦ (of_decide_eq_true hx).1

/-- An interval of the length of a window meets at most two windows. -/
theorem length_filter_le_two_mul {p : α → Bool} (a : Instant)
    (hsorted : xs.Pairwise fun x y ↦ time x ≤ time y)
    (hwindow : ∀ g ∈ windows time window xs, (g.filter p).length ≤ limit) :
    (xs.filter fun x ↦ p x ∧ a ≤ time x ∧ time x < a + window).length ≤ 2 * limit := by
  induction xs using windows.induct time window with
  | case1 => exact Nat.zero_le _
  | case2 first rest ih =>
    rw [windows, List.forall_mem_cons] at hwindow
    rw [← append_dropWhile time (time first + window) first rest] at hsorted ⊢
    obtain ⟨-, hlater, hcross⟩ := List.pairwise_append.mp hsorted
    rw [List.filter_append, List.length_append]
    set now := first :: rest.takeWhile fun x ↦ time x < time first + window
    set later := rest.dropWhile fun x ↦ time x < time first + window
    by_cases hmeets : ∃ x ∈ now, a ≤ time x
    -- all that comes later comes after the beginning of the interval
    · obtain ⟨x, hx, hstart⟩ := hmeets
      have hnone : ∀ y ∈ later, a ≤ time y := fun y hy ↦ Nat.le_trans hstart (hcross x hx y hy)
      have hnow : (now.filter fun x ↦ p x ∧ a ≤ time x ∧ time x < a + window).length ≤ limit :=
        Nat.le_trans (List.monotone_filter_right _
          fun x hx ↦ (of_decide_eq_true hx).1).length_le hwindow.1
      have hrest : (later.filter fun x ↦ p x ∧ a ≤ time x ∧ time x < a + window).length ≤ limit :=
        Nat.le_trans (List.monotone_filter_right _ fun x hx ↦ by simp_all).length_le
          (length_filter_le_of_forall_le hlater hwindow.2 hnone)
      omega
    -- the interval has not begun yet
    · have hempty : now.filter (fun x ↦ p x ∧ a ≤ time x ∧ time x < a + window) = [] := by
        refine List.filter_eq_nil_iff.mpr fun x hx hin ↦ hmeets ⟨x, hx, ?_⟩
        exact (of_decide_eq_true hin).2.1
      rw [hempty, List.length_nil, Nat.zero_add]
      exact ih hlater hwindow.2

end Windows

/-! ## A counter of one's own -/

namespace Limiter

variable {l : Limiter} {before : Option Entry} {t : Instant}

/-- A counter that has expired starts anew, under either policy. -/
theorem recount_of_le (hover : ∀ e ∈ before, e.expires ≤ t) :
    l.recount before t = (1, ⟨.counter 1, t + l.window⟩) := by
  rw [recount]
  cases before with
  | none => rfl
  | some e =>
    rw [Entry.filter_isLive_of_le (hover e rfl)]
    rfl

/-- A counter that lasts goes on, and under the fixed policy it expires when it would have. -/
theorem recount_of_lt (hfixed : l.policy = .fixed) {n : Nat} {ends : Instant} (hlt : t < ends) :
    l.recount (some ⟨.counter n, ends⟩) t = (n + 1, ⟨.counter (n + 1), ends⟩) := by
  rw [recount, Entry.filter_isLive_of_lt hlt, MemoryStore.counted, hfixed]
  rfl

variable {earlier rest : List Instant} {first : Instant}

/-- What a counter has counted at the end of a window: all of it, and nothing that was earlier. -/
theorem tally_window (hfixed : l.policy = .fixed)
    (hover : ∀ e ∈ l.tally earlier, e.expires ≤ first)
    (hin : ∀ t ∈ rest, t < first + l.window) :
    l.tally (earlier ++ first :: rest)
      = some ⟨.counter (rest.length + 1), first + l.window⟩ := by
  induction rest using List.reverseRecOn with
  | nil => rw [tally_append_singleton, recount_of_le hover, List.length_nil]
  | append_singleton rest t ih =>
    have hrest := ih fun t ht ↦ hin t (List.mem_append_left _ ht)
    have ht : t < first + l.window := hin t (List.mem_append_right _ (List.mem_singleton_self t))
    rw [← List.cons_append, ← List.append_assoc, tally_append_singleton, hrest,
      recount_of_lt hfixed ht, List.length_append, List.length_singleton]

/-! ## Window after window -/

section

variable {α : Type} {time : α → Instant} {count : α → Nat} {xs : List α}

/-- Things were counted one after another by a counter of their own, which had been counted at some
earlier instants. -/
def CountedInTurn (l : Limiter) (time : α → Instant) (count : α → Nat) (earlier : List Instant)
    (xs : List α) : Prop :=
  ∀ pre x post, xs = pre ++ x :: post →
    count x = (l.recount (l.tally (earlier ++ pre.map time)) (time x)).1

theorem CountedInTurn.of_append {ys : List α}
    (h : l.CountedInTurn time count earlier (ys ++ xs)) :
    l.CountedInTurn time count (earlier ++ ys.map time) xs := by
  intro pre x post hxs
  have hx := h (ys ++ pre) x post (by rw [hxs, List.append_assoc])
  rwa [List.map_append, ← List.append_assoc] at hx

/-- The count of the member of a window at a place. -/
theorem count_of_getElem? {x₀ : α} {ys later : List α} (hfixed : l.policy = .fixed)
    (hover : ∀ e ∈ l.tally earlier, e.expires ≤ time x₀)
    (hin : ∀ x ∈ ys, time x < time x₀ + l.window)
    (h : l.CountedInTurn time count earlier (x₀ :: ys ++ later)) {k : Nat} {x : α}
    (hx : (x₀ :: ys)[k]? = some x) : count x = k + 1 := by
  cases k with
  | zero =>
    obtain rfl : x₀ = x := Option.some.inj hx
    rw [h [] x₀ (ys ++ later) rfl, List.map_nil, List.append_nil, recount_of_le hover]
  | succ k =>
    rw [List.getElem?_cons_succ] at hx
    obtain ⟨hk, rfl⟩ := List.getElem?_eq_some_iff.mp hx
    have hcut : x₀ :: ys ++ later
        = x₀ :: ys.take k ++ ys[k] :: (ys.drop (k + 1) ++ later) := by
      simp only [List.cons_append, List.cons.injEq, true_and]
      rw [← List.cons_append, ← List.drop_eq_getElem_cons hk, ← List.append_assoc,
        List.take_append_drop]
    have hbefore : ∀ t ∈ (ys.take k).map time, t < time x₀ + l.window := by
      intro t ht
      obtain ⟨y, hy, rfl⟩ := List.mem_map.mp ht
      exact hin y (List.mem_of_mem_take hy)
    rw [h _ _ _ hcut, List.map_cons, tally_window hfixed hover hbefore,
      recount_of_lt hfixed (hin _ (List.getElem_mem hk)), List.length_map,
      List.length_take_of_le hk.le]

/-- When a window begins, nothing is left of what the windows before it have counted. -/
theorem expires_le_of_windows {init later : List (List α)} {g : List α}
    (hfixed : l.policy = .fixed)
    (hover : ∀ e ∈ l.tally earlier, ∀ x ∈ xs, e.expires ≤ time x)
    (hsorted : xs.Pairwise fun x y ↦ time x ≤ time y)
    (hcut : windows time l.window xs = init ++ g :: later) :
    ∀ e ∈ l.tally (earlier ++ init.flatten.map time), ∀ x ∈ g, e.expires ≤ time x := by
  induction xs using windows.induct time l.window generalizing earlier init with
  | case1 => simp [windows] at hcut
  | case2 x₀ ys ih =>
    have hys := (List.pairwise_cons.mp hsorted).2
    have hfirst : ∀ e ∈ l.tally earlier, e.expires ≤ time x₀ :=
      fun e he ↦ hover e he x₀ List.mem_cons_self
    rw [windows] at hcut
    cases init with
    | nil =>
      obtain ⟨rfl, -⟩ := List.cons.inj hcut
      rw [List.flatten_nil, List.map_nil, List.append_nil]
      exact fun e he x hx ↦ hover e he x
        (List.cons_subset_cons _ (List.takeWhile_sublist _).subset hx)
    | cons g₀ init =>
      rw [List.cons_append] at hcut
      obtain ⟨rfl, hrest⟩ := List.cons.inj hcut
      rw [List.flatten_cons, List.map_append, ← List.append_assoc]
      refine ih ?_ (hys.sublist (List.dropWhile_sublist _)) hrest
      -- the first window has left a counter that expires when that window is over
      have hin : ∀ t ∈ (ys.takeWhile fun x ↦ time x < time x₀ + l.window).map time,
          t < time x₀ + l.window := by
        intro t ht
        obtain ⟨x, hx, rfl⟩ := List.mem_map.mp ht
        simpa using List.mem_takeWhile_imp hx
      intro e he x hx
      rw [List.map_cons, tally_window hfixed hfirst hin] at he
      rw [← Option.some.inj he]
      exact le_of_mem_dropWhile hys x hx

/-- **A count is a position in a window.** -/
theorem count_of_mem_windows {g : List α} (hfixed : l.policy = .fixed)
    (hsorted : xs.Pairwise fun x y ↦ time x ≤ time y) (h : l.CountedInTurn time count [] xs)
    (hg : g ∈ windows time l.window xs) {k : Nat} {x : α} (hx : g[k]? = some x) :
    count x = k + 1 := by
  obtain ⟨init, later, hcut⟩ := List.append_of_mem hg
  have hnone : ∀ e ∈ l.tally [], ∀ x ∈ xs, e.expires ≤ time x := nofun
  have hover := expires_le_of_windows hfixed hnone hsorted hcut
  have hxs : xs = init.flatten ++ (g ++ later.flatten) := by
    rw [← flatten_windows time l.window xs, hcut, List.flatten_append, List.flatten_cons]
  rw [hxs] at h
  cases g with
  | nil => simp at hx
  | cons x₀ ys =>
    exact count_of_getElem? hfixed (fun e he ↦ hover e he x₀ List.mem_cons_self)
      (lt_of_mem_windows hg) h.of_append hx

/-- After all its windows a counter is what the latest of them has made of it. -/
theorem tally_of_getLast?_windows {x₀ : α} {ys : List α} (hfixed : l.policy = .fixed)
    (hsorted : xs.Pairwise fun x y ↦ time x ≤ time y)
    (hlast : (windows time l.window xs).getLast? = some (x₀ :: ys)) :
    l.tally (xs.map time) = some ⟨.counter (ys.length + 1), time x₀ + l.window⟩ := by
  obtain ⟨init, hcut⟩ := List.getLast?_eq_some_iff.mp hlast
  have hnone : ∀ e ∈ l.tally [], ∀ x ∈ xs, e.expires ≤ time x := nofun
  have hover := expires_le_of_windows hfixed hnone hsorted hcut
  have hin := lt_of_mem_windows (List.mem_of_getLast? hlast)
  rw [← flatten_windows time l.window xs, hcut, List.flatten_append, List.flatten_singleton,
    List.map_append, List.map_cons]
  refine (tally_window hfixed (fun e he ↦ hover e he x₀ List.mem_cons_self) ?_).trans ?_
  · intro t ht
    obtain ⟨y, hy, rfl⟩ := List.mem_map.mp ht
    exact hin y hy
  · rw [List.length_map]

end

end Limiter

/-! ## The checks of a client -/

namespace Traffic

/-- The counts of a client, each with its place. -/
def checks (t : Traffic MemoryStore) (client : String) : List (Count × Nat) :=
  t.counts.zipIdx.filter fun c ↦ c.1.client = client

/-- The windows into which the checks of a client fall. -/
def windows (l : Limiter) (t : Traffic MemoryStore) (client : String) :
    List (List (Count × Nat)) :=
  Gatehouse.windows (fun c ↦ c.1.time) l.window (t.checks client)

namespace Isolated

variable {l : Limiter} {t : Traffic MemoryStore}

theorem mem_checks {client : String} {c : Count} {i : Nat} :
    (c, i) ∈ t.checks client ↔ t.counts[i]? = some c ∧ c.client = client := by
  rw [checks, List.mem_filter, List.mk_mem_zipIdx_iff_getElem?, decide_eq_true_iff]

theorem times_eq_map_zipIdx (client : String) (counts : List Count) :
    times client counts
      = (counts.zipIdx.filter fun c ↦ c.1.client = client).map fun c ↦ c.1.time := by
  rw [times, ← List.zipIdx_map_fst 0 counts, List.filter_map, List.map_map, List.zipIdx_map_fst]
  rfl

theorem sorted_checks (h : Isolated l t) (client : String) :
    (t.checks client).Pairwise fun c c' ↦ c.1.time ≤ c'.1.time := by
  rw [← List.pairwise_map, checks, ← times_eq_map_zipIdx, times]
  exact h.ordered.sublist (List.filter_sublist.map _)

/-- What comes before a check among the checks of its client was counted before it. -/
theorem eq_filter_of_checks {client : String} {pre post : List (Count × Nat)} {c : Count} {i : Nat}
    (hcut : t.checks client = pre ++ (c, i) :: post) :
    pre = (t.counts.take i).zipIdx.filter fun c ↦ c.1.client = client := by
  obtain ⟨hc, hclient⟩ := mem_checks.mp (hcut ▸ List.mem_append_cons_self)
  obtain ⟨hi, rfl⟩ := List.getElem?_eq_some_iff.mp hc
  have hsplit : t.counts = t.counts.take i ++ t.counts[i] :: t.counts.drop (i + 1) := by
    rw [← List.drop_eq_getElem_cons hi, List.take_append_drop]
  have hplace : (t.counts.take i).length = i := List.length_take_of_le hi.le
  have hchecks : t.checks client
      = ((t.counts.take i).zipIdx.filter fun c ↦ c.1.client = client) ++ (t.counts[i], i) ::
        ((t.counts.drop (i + 1)).zipIdx (i + 1)).filter fun c ↦ c.1.client = client := by
    rw [checks]
    conv_lhs => rw [hsplit]
    rw [List.zipIdx_append, List.zipIdx_cons, List.filter_append, hplace, Nat.zero_add,
      List.filter_cons_of_pos (by simpa using hclient)]
  rw [hchecks] at hcut
  -- places grow, so there is one place at which the two ways of cutting can meet
  refine ((List.append_cons_inj_of_notMem ?_ ?_).mp hcut).1.symm
  · intro hmem
    have hlt := List.snd_lt_of_mem_zipIdx (List.mem_of_mem_filter hmem)
    rw [hplace] at hlt
    exact Nat.lt_irrefl i hlt
  · intro hmem
    exact Nat.not_succ_le_self i (List.le_snd_of_mem_zipIdx (List.mem_of_mem_filter hmem))

theorem countedInTurn (h : Isolated l t) (client : String) :
    l.CountedInTurn (fun c ↦ c.1.time) (fun c ↦ c.1.count) [] (t.checks client) := by
  rintro pre ⟨c, i⟩ post hcut
  obtain ⟨hc, rfl⟩ := mem_checks.mp (hcut ▸ List.mem_append_cons_self)
  have hbefore : times c.client (t.counts.take i) = pre.map fun c ↦ c.1.time := by
    rw [eq_filter_of_checks hcut, times_eq_map_zipIdx]
  rw [List.nil_append, ← hbefore]
  exact h.counted i c hc

/-! ## Verdicts -/

variable {client : String} {g : List (Count × Nat)} {c : Count × Nat} {i k : Nat}

theorem count_of_getElem?_windows (h : Isolated l t) (hfixed : l.policy = .fixed)
    (hg : g ∈ t.windows l client) (hc : g[k]? = some c) : c.1.count = k + 1 :=
  Limiter.count_of_mem_windows hfixed (h.sorted_checks client) (h.countedInTurn client) hg hc

theorem mem_counts_of_mem_windows (hg : g ∈ t.windows l client) (hc : c ∈ g) :
    t.counts[c.2]? = some c.1 ∧ c.1.client = client :=
  mem_checks.mp ((sublist_of_mem_windows hg).subset hc)

theorem verdict_of_getElem?_windows (h : Isolated l t) (hfixed : l.policy = .fixed)
    (hg : g ∈ t.windows l client) (hc : g[k]? = some c) {d : Decision}
    (hd : t.verdicts.find? c.2 = some d) :
    (d.admitted = true ↔ k < l.limit) ∧ d.remaining = l.limit - (k + 1) := by
  obtain ⟨c', hc', hadmitted, hremaining⟩ := h.decided c.2 d hd
  rw [(mem_counts_of_mem_windows hg (List.mem_of_getElem? hc)).1, Option.some.injEq] at hc'
  rw [← hc', h.count_of_getElem?_windows hfixed hg hc] at hadmitted hremaining
  exact ⟨by rw [hadmitted, decide_eq_true_iff, Nat.succ_le_iff], hremaining⟩

/-- What a check is told about the time left: the time up to the end of the latest window of its
client, if that is not over. -/
theorem ttl_of_getLast?_windows (h : Isolated l t) (hfixed : l.policy = .fixed)
    {later : List (Count × Nat)} (hlast : (t.windows l client).getLast? = some (c :: later)) :
    t.world.store.ttl t.world.now (l.key client)
      = if t.world.now < c.1.time + l.window then some (c.1.time + l.window - t.world.now)
        else none := by
  have htally := Limiter.tally_of_getLast?_windows hfixed (h.sorted_checks client) hlast
  rw [checks, ← times_eq_map_zipIdx] at htally
  rw [MemoryStore.ttl, h.counter client _ (Nat.le_refl _), htally]
  split
  · next hlasts => rw [Entry.filter_isLive_of_lt hlasts, Option.map_some]
  · next hover => rw [Entry.filter_isLive_of_le (Nat.not_lt.mp hover), Option.map_none]

/-- A window that is not over is the latest one. -/
theorem getLast?_windows_of_lt (h : Isolated l t) {later : List (Count × Nat)}
    (hg : c :: later ∈ t.windows l client) (hlasts : t.world.now < c.1.time + l.window) :
    (t.windows l client).getLast? = some (c :: later) := by
  obtain ⟨init, rest, hcut⟩ := List.append_of_mem hg
  cases rest with
  | nil => rw [hcut, List.getLast?_concat]
  | cons g' rest =>
    -- a later window would have begun after the end of this one, which is yet to come
    have hg' : g' ∈ t.windows l client := by simp [hcut]
    have hne : g' ≠ [] := fun hnil ↦ nil_notMem_windows _ _ _ (hnil ▸ hg')
    obtain ⟨c', g', rfl⟩ := List.exists_cons_of_ne_nil hne
    have hafter : c.1.time + l.window ≤ c'.1.time := by
      have hpair : (t.windows l client).Pairwise _ := pairwise_windows (h.sorted_checks client)
      rw [hcut, List.pairwise_append] at hpair
      exact (List.pairwise_cons.mp hpair.2.1).1 _ List.mem_cons_self c rfl c' List.mem_cons_self
    have hpast := h.past c'.1 (List.mem_of_getElem?
      (mem_counts_of_mem_windows hg' List.mem_cons_self).1)
    exact absurd hlasts (Nat.not_lt.mpr (Nat.le_trans hafter hpast))

/-! ## Admission -/

/-- Of the checks in a window no more are admitted than the limit says: the first ones. -/
theorem length_filter_window_le (h : Isolated l t) (hfixed : l.policy = .fixed)
    (hg : g ∈ t.windows l client) :
    (g.filter fun c ↦ (t.verdicts.find? c.2).any Decision.admitted).length ≤ l.limit := by
  have hrest : ∀ c ∈ g.drop l.limit,
      ¬ (t.verdicts.find? c.2).any Decision.admitted = true := by
    intro c hc hadmitted
    obtain ⟨k, hk⟩ := List.getElem?_of_mem hc
    rw [List.getElem?_drop] at hk
    obtain ⟨d, hd, hyes⟩ := (Option.any_eq_true _ _).mp hadmitted
    have hlt := (h.verdict_of_getElem?_windows hfixed hg hk hd).1.mp hyes
    omega
  rw [← List.take_append_drop l.limit g, List.filter_append, List.filter_eq_nil_iff.mpr hrest,
    List.append_nil]
  exact Nat.le_trans (List.length_filter_le _ _) (List.length_take_le _ _)

/-- In no half-open interval of the length of a window are more checks of a client admitted than
twice the limit. -/
theorem length_admitted_le_two_mul (h : Isolated l t) (hfixed : l.policy = .fixed)
    (client : String) (a : Instant) :
    (t.admitted.filter fun c ↦ c.client = client ∧ a ≤ c.time ∧ c.time < a + l.window).length
      ≤ 2 * l.limit := by
  have hbound := length_filter_le_two_mul a (h.sorted_checks client)
    fun g hg ↦ h.length_filter_window_le hfixed hg
  rw [admitted, List.filter_map, List.length_map, List.filter_filter]
  rw [checks, List.filter_filter] at hbound
  refine Nat.le_trans (Nat.le_of_eq ?_) hbound
  congr 1
  refine List.filter_congr fun c _ ↦ ?_
  rw [Bool.eq_iff_iff]
  simp [and_comm, and_assoc]

end Isolated

end Traffic

/-- What the fixed policy promises of a state that a run of checks has led to. -/
structure Traffic.AdmitsByWindows (last : Instant) (l : Limiter) (t : Traffic MemoryStore) :
    Prop where
  /-- A check whose two steps nothing comes between is the check that the limiter makes. -/
  undisturbed : ∀ client t', t.step? last l (.count client) = some t' →
    ∃ d w, l.check client t.world = (.ok d, w) ∧
      (t'.step l (.conclude t.counts.length)).world = w ∧
      (t'.step l (.conclude t.counts.length)).verdicts.find? t.counts.length = some d
  /-- The windows of a client are its checks, cut into pieces. -/
  flatten : ∀ client, (t.windows l client).flatten = t.checks client
  nonempty : ∀ client, [] ∉ t.windows l client
  /-- A window begins with its first check, and the others come before it is over. -/
  within : ∀ client first rest, first :: rest ∈ t.windows l client → ∀ c ∈ first :: rest,
    first.1.time ≤ c.1.time ∧ c.1.time < first.1.time + l.window
  /-- A window begins when those before it are over. -/
  consecutive : ∀ client, (t.windows l client).Pairwise fun g g' ↦
    ∀ c ∈ g.head?, ∀ c' ∈ g', c.1.time + l.window ≤ c'.1.time
  /-- The counts in a window are one, two, three, and so on. -/
  counts : ∀ client, ∀ g ∈ t.windows l client, g.map (fun c ↦ c.1.count) = List.range' 1 g.length
  /-- A check that has counted gets a verdict when it concludes. -/
  concludes : ∀ i c, t.counts[i]? = some c →
    ∃ d, (t.step l (.conclude i)).verdicts.find? i = some d
  /-- The first checks of a window are admitted, as many as the limit says, and no others. -/
  verdict : ∀ client, ∀ g ∈ t.windows l client, ∀ k c d, g[k]? = some c →
    t.verdicts.find? c.2 = some d →
    (d.admitted = true ↔ k < l.limit) ∧ d.remaining = l.limit - (k + 1)
  /-- A check that concludes while its window lasts is told the end of the window. -/
  told : ∀ client first rest, first :: rest ∈ t.windows l client → ∀ c ∈ first :: rest,
    t.verdicts.find? c.2 = none → t.world.now < first.1.time + l.window →
    (t.step l (.conclude c.2)).verdicts.find? c.2 = some (l.decide t.world.now c.1.count
      (.ok (some (first.1.time + l.window - t.world.now))))
  /-- A check that takes longer is told the end of its client's latest window, if that lasts. -/
  toldLate : ∀ client first rest, (t.windows l client).getLast? = some (first :: rest) →
    ∀ c ∈ t.checks client, t.verdicts.find? c.2 = none →
    (t.step l (.conclude c.2)).verdicts.find? c.2 = some (l.decide t.world.now c.1.count
      (.ok (if t.world.now < first.1.time + l.window
        then some (first.1.time + l.window - t.world.now) else none)))
  /-- Of the checks that a client has counted in a half-open interval as long as a window, no more
  are admitted than twice the limit. -/
  interval : ∀ client a,
    (t.admitted.filter fun c ↦ c.client = client ∧ a ≤ c.time ∧ c.time < a + l.window).length
      ≤ 2 * l.limit

theorem Traffic.Isolated.admitsByWindows {l : Limiter} {t : Traffic MemoryStore}
    (h : Isolated l t) (hfixed : l.policy = .fixed) (last : Instant) :
    AdmitsByWindows last l t := by
  have htold : ∀ client first rest, (t.windows l client).getLast? = some (first :: rest) →
      ∀ c ∈ t.checks client, t.verdicts.find? c.2 = none →
      (t.step l (.conclude c.2)).verdicts.find? c.2 = some (l.decide t.world.now c.1.count
        (.ok (if t.world.now < first.1.time + l.window
          then some (first.1.time + l.window - t.world.now) else none))) := by
    intro client first rest hlast c hc hopen
    obtain ⟨hcounted, rfl⟩ := Isolated.mem_checks.mp hc
    rw [step_conclude hcounted hopen, Table.find?_insert, if_pos rfl,
      h.ttl_of_getLast?_windows hfixed hlast]
  constructor
  case undisturbed => exact fun _ _ ↦ h.check
  case flatten => exact fun client ↦ flatten_windows _ _ _
  case nonempty => exact fun client ↦ nil_notMem_windows _ _ _
  case within =>
    intro client first rest hg c hc
    have hsorted := (h.sorted_checks client).sublist (sublist_of_mem_windows hg)
    rcases List.mem_cons.mp hc with rfl | hc
    · have hpos : 0 < l.window := Nat.lt_of_lt_of_le (by decide) l.one_second_le
      exact ⟨Nat.le_refl _, Nat.lt_add_of_pos_right hpos⟩
    · exact ⟨(List.pairwise_cons.mp hsorted).1 c hc, lt_of_mem_windows hg c hc⟩
  case consecutive => exact fun client ↦ pairwise_windows (h.sorted_checks client)
  case counts =>
    intro client g hg
    refine List.ext_getElem (by simp) fun k hk hk' ↦ ?_
    rw [List.length_map] at hk
    rw [List.getElem_map, List.getElem_range', Nat.one_mul, Nat.add_comm]
    exact h.count_of_getElem?_windows hfixed hg (List.getElem?_eq_getElem hk)
  case concludes => exact fun i c hc ↦ exists_verdict l hc
  case verdict =>
    exact fun client g hg k c d hc hd ↦ h.verdict_of_getElem?_windows hfixed hg hc hd
  case told =>
    intro client first rest hg c hc hopen hlasts
    have hlast := h.getLast?_windows_of_lt hg hlasts
    have hchecks := (sublist_of_mem_windows hg).subset hc
    rw [htold client first rest hlast c hchecks hopen, if_pos hlasts]
  case toldLate => exact htold
  case interval => exact h.length_admitted_le_two_mul hfixed

/-- **Admission under the fixed policy.** Whatever the clients do, and in whatever order the steps
of their checks are taken, it is the place in a window that decides. The program comes to the end
of the run unless the clock does not last for some window that is begun in it. -/
theorem Traffic.fixed_admitsByWindows (l : Limiter) (hfixed : l.policy = .fixed)
    (last now : Instant) (steps : List Traffic.Step) :
    (∀ t, Traffic.run? last l now steps = some t → Traffic.AdmitsByWindows last l t) ∧
      (Traffic.run? last l now steps = none ↔
        ∃ c ∈ (Traffic.run l now steps).counts, c.count = 1 ∧ last < c.time + l.window) := by
  have h := Isolated.run l now steps
  constructor
  · rintro t hrun
    rw [run?_eq_some hrun] at h
    exact h.admitsByWindows hfixed last
  · rw [run?_eq_none_iff]
    simp [hfixed, and_comm]

/-- One request a second. The second count of the one client comes while its first window lasts and
is turned away, although it concludes in the next window; the third comes when that has begun. -/
theorem Traffic.fixed_admitsByWindows_oncePerSecond :
    let l : Limiter := ⟨1, nanosPerSec, "rate_limit:", .fixed, Nat.one_pos, Nat.le_refl _⟩
    let last := Duration.ofSecs 2
    let steps : List Traffic.Step := [.count "a", .wait 1, .count "b", .wait (nanosPerSec - 2),
      .count "a", .conclude 0, .wait 1, .count "a", .conclude 3, .conclude 2, .conclude 1]
    l.policy = .fixed ∧ ∃ t, Traffic.run? last l 0 steps = some t ∧
      Traffic.AdmitsByWindows last l t ∧
      t.counts.map Traffic.Count.count = [1, 1, 2, 1] ∧
      t.admitted.map Traffic.Count.client = ["a", "b", "a"] := by
  intro l last steps
  obtain ⟨hadmits, hends⟩ := Traffic.fixed_admitsByWindows l rfl last 0 steps
  have hlasts : ¬ ∃ c ∈ (Traffic.run l 0 steps).counts,
      c.count = 1 ∧ last < c.time + l.window := by
    decide +kernel
  obtain ⟨t, hrun⟩ := Option.ne_none_iff_exists'.mp (mt hends.mp hlasts)
  refine ⟨rfl, t, hrun, hadmits t hrun, ?_, ?_⟩ <;> rw [← Traffic.run?_eq_some hrun] <;>
    decide +kernel

/-- A check that is told about the time left only when its window is over is not told the end of
that window: it is told an end a whole window later. -/
theorem Traffic.not_told_end_of_over :
    let l : Limiter := ⟨1, nanosPerSec, "rate_limit:", .fixed, Nat.one_pos, Nat.le_refl _⟩
    let steps : List Traffic.Step := [.count "a", .wait nanosPerSec, .conclude 0]
    ∃ t, Traffic.run? (Duration.ofSecs 2) l 0 steps = some t ∧
      t.windows l "a" = [[(⟨"a", 0, 1⟩, 0)]] ∧
      t.world.store.ttl t.world.now (l.key "a") = none ∧
      (t.verdicts.find? 0).map Decision.resetAt = some 2 := by
  intro l steps
  have hlasts : ¬ ∃ c ∈ (Traffic.run l 0 steps).counts,
      Duration.ofSecs 2 < c.time + l.window ∧ (l.policy = .fixed → c.count = 1) := by
    decide +kernel
  obtain ⟨t, hrun⟩ :=
    Option.ne_none_iff_exists'.mp (mt (Traffic.run?_eq_none_iff _ l 0 steps).mp hlasts)
  have hchecks : (Traffic.run l 0 steps).checks "a" = [(⟨"a", 0, 1⟩, 0)] := by decide +kernel
  refine ⟨t, hrun, ?_⟩
  rw [← Traffic.run?_eq_some hrun]
  refine ⟨?_, by decide +kernel, by decide +kernel⟩
  rw [Traffic.windows, hchecks]
  simp [Gatehouse.windows]

end Gatehouse
