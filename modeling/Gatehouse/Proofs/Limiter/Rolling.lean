import Mathlib.Data.List.Chain
import Mathlib.Data.List.Perm.Subperm
import Mathlib.Order.Bounds.Defs
import Gatehouse.Proofs.Limiter.Traffic

/-!
# What a rolling window admits

Under the rolling policy every count moves the expiry of its counter a whole window on, so a
counter starts anew only after a silence of a window. The count that a check sees is therefore the
length of a chain: of the longest one that ends with it and whose links are shorter than a window.

## From chains to intervals

Nothing in the limiter speaks of intervals of time, yet a half-open interval of the length of a
window never sees more checks of a client admitted than the limit says. Inside such an interval no
silence is as long as a window, so the counts of the client grow from check to check, and those
within the limit are different numbers from one to the limit.

The streak below is computed latest first, because the recursion of a count runs back in time. The
statements are about instants in their natural order.
-/

namespace Gatehouse

/-! ## Streaks -/

/-- The number of instants, latest first, up to the first gap of a window or more. -/
def streak (window : Duration) : List Instant → Nat
  | [] => 0
  | [_] => 1
  | t :: t' :: rest => if t < t' + window then streak window (t' :: rest) + 1 else 1

section Streaks

variable {window : Duration} {t t' : Instant} {rest : List Instant}

theorem streak_cons_of_lt (h : t < t' + window) :
    streak window (t :: t' :: rest) = streak window (t' :: rest) + 1 := by
  rw [streak, if_pos h]

theorem streak_cons_of_le (h : t' + window ≤ t) : streak window (t :: t' :: rest) = 1 := by
  rw [streak, if_neg (Nat.not_lt.mpr h)]

theorem streak_cons_pos (window : Duration) (t : Instant) (rest : List Instant) :
    0 < streak window (t :: rest) := by
  cases rest with
  | nil => exact Nat.one_pos
  | cons t' rest =>
    rw [streak]
    split <;> omega

/-- Instants without a long gap add one each. -/
theorem streak_append_of_isChain {mids : List Instant}
    (h : (t :: mids ++ [t']).IsChain fun b a ↦ b < a + window) :
    streak window (t :: mids ++ t' :: rest) = mids.length + 1 + streak window (t' :: rest) := by
  induction mids generalizing t with
  | nil =>
    have hgap : t < t' + window := by simpa using h
    rw [List.singleton_append, streak_cons_of_lt hgap, List.length_nil, Nat.zero_add, Nat.add_comm]
  | cons m mids ih =>
    obtain ⟨hgap, hmids⟩ := List.isChain_cons_cons.mp h
    have hstep : streak window (t :: m :: mids ++ t' :: rest)
        = streak window (m :: mids ++ t' :: rest) + 1 := streak_cons_of_lt hgap
    rw [hstep, ih hmids, List.length_cons]
    omega

end Streaks

/-! ## Chains -/

/-- The lengths of the chains that end with an instant: their other members are taken from the
earlier instants, and any two successive members are less than a window apart. -/
def chainLengths (window : Duration) (earlier : List Instant) (t : Instant) : Set Nat :=
  {n | ∃ chain, chain.Sublist earlier ∧ (chain ++ [t]).IsChain (fun a b ↦ b < a + window) ∧
    (chain ++ [t]).length = n}

/-- There is a chain as long as the streak: the streak itself. -/
theorem exists_chain_of_streak (window : Duration) (t : Instant) (before : List Instant) :
    ∃ chain, chain.Sublist before ∧ (t :: chain).IsChain (fun b a ↦ b < a + window) ∧
      (t :: chain).length = streak window (t :: before) := by
  induction before generalizing t with
  | nil => exact ⟨[], .slnil, .singleton t, rfl⟩
  | cons t' rest ih =>
    by_cases hgap : t < t' + window
    · obtain ⟨chain, hsub, hchain, hlen⟩ := ih t'
      refine ⟨t' :: chain, hsub.cons_cons t', List.isChain_cons_cons.mpr ⟨hgap, hchain⟩, ?_⟩
      rw [streak_cons_of_lt hgap, List.length_cons, hlen]
    · refine ⟨[], List.nil_sublist _, .singleton t, ?_⟩
      rw [streak_cons_of_le (Nat.not_lt.mp hgap)]
      rfl

/-- No chain is longer: leaving an instant out makes the gap around it only wider. -/
theorem length_le_streak {window : Duration} {t : Instant} {before chain : List Instant}
    (hsorted : (t :: before).Pairwise (· ≥ ·)) (hsub : chain.Sublist before)
    (hchain : (t :: chain).IsChain fun b a ↦ b < a + window) :
    (t :: chain).length ≤ streak window (t :: before) := by
  induction before generalizing t chain with
  | nil =>
    rw [List.sublist_nil.mp hsub]
    exact Nat.le_refl _
  | cons t' rest ih =>
    obtain ⟨hle, hrest⟩ := List.pairwise_cons.mp hsorted
    cases chain with
    | nil => exact streak_cons_pos window t _
    | cons m chain =>
      obtain ⟨hgap, htail⟩ := List.isChain_cons_cons.mp hchain
      -- the next member of the chain is no later than the instant that comes next
      have hm : m ≤ t' := by
        rcases List.mem_cons.mp (hsub.subset List.mem_cons_self) with rfl | hmem
        · exact Nat.le_refl _
        · exact (List.pairwise_cons.mp hrest).1 m hmem
      have ht' : t < t' + window := Nat.lt_of_lt_of_le hgap (Nat.add_le_add_right hm window)
      rw [streak_cons_of_lt ht', List.length_cons]
      refine Nat.succ_le_succ ?_
      cases hsub with
      | cons_cons _ hsub => exact ih hrest hsub htail
      | cons _ hsub =>
        have hfrom : (t' :: m :: chain).IsChain fun b a ↦ b < a + window :=
          List.isChain_cons_cons.mpr
            ⟨Nat.lt_of_le_of_lt (hle t' List.mem_cons_self) hgap, htail⟩
        exact Nat.le_of_succ_le (ih hrest hsub hfrom)

/-- **The streak is the longest chain.** -/
theorem isGreatest_streak {window : Duration} {earlier : List Instant} {t : Instant}
    (hsorted : (earlier ++ [t]).Pairwise (· ≤ ·)) :
    IsGreatest (chainLengths window earlier t) (streak window (t :: earlier.reverse)) := by
  constructor
  · obtain ⟨chain, hsub, hchain, hlen⟩ := exists_chain_of_streak window t earlier.reverse
    refine ⟨chain.reverse, ?_, ?_, ?_⟩
    · rw [← List.reverse_reverse earlier]
      exact hsub.reverse
    · rw [← List.reverse_cons]
      exact List.isChain_reverse.mpr hchain
    · rw [← List.reverse_cons, List.length_reverse, hlen]
  · rintro n ⟨chain, hsub, hchain, rfl⟩
    have hreverse : (chain ++ [t]).reverse = t :: chain.reverse := by simp
    rw [← List.length_reverse, hreverse]
    refine length_le_streak ?_ hsub.reverse ?_
    · have hdesc := List.pairwise_reverse.mpr hsorted
      rwa [List.reverse_append] at hdesc
    · rw [← hreverse]
      exact List.isChain_reverse.mpr hchain

/-! ## The counter of a client -/

namespace Limiter

variable {l : Limiter}

/-- What is counted under the rolling policy: the streak, which lasts for another window. -/
theorem recount_rolling (hrolling : l.policy = .rolling) (earlier : List Instant) (t : Instant) :
    l.recount (l.tally earlier) t = (streak l.window (t :: earlier.reverse),
      ⟨.counter (streak l.window (t :: earlier.reverse)), t + l.window⟩) := by
  induction earlier using List.reverseRecOn generalizing t with
  | nil => rfl
  | append_singleton earlier t' ih =>
    rw [tally_append_singleton, ih t', List.reverse_append, recount]
    rw [List.reverse_singleton, List.singleton_append]
    rcases Nat.lt_or_ge t (t' + l.window) with hgap | hgap
    · rw [Entry.filter_isLive_of_lt hgap, streak_cons_of_lt hgap, MemoryStore.counted,
        if_pos hrolling]
    · rw [Entry.filter_isLive_of_le hgap, streak_cons_of_le hgap]
      rfl

end Limiter

/-! ## Two counts of one client -/

/-- Two places cut a list into what is before the first, what is between them, and the rest. -/
theorem exists_between {α : Type} {xs : List α} {a b : α} {i j : Nat} (hij : i < j)
    (ha : xs[i]? = some a) (hb : xs[j]? = some b) :
    ∃ mid, xs.take j = xs.take i ++ a :: mid ∧ (xs.take (j + 1)).drop i = a :: mid ++ [b] := by
  obtain ⟨hi, rfl⟩ := List.getElem?_eq_some_iff.mp ha
  have hlen : i < (xs.take j).length := by
    rw [List.length_take]
    exact Nat.lt_min.mpr ⟨hij, (List.getElem?_eq_some_iff.mp hb).1.trans' hij⟩
  obtain ⟨mid, htake⟩ : ∃ mid, xs.take j = xs.take i ++ xs[i] :: mid := by
    refine ⟨(xs.take j).drop (i + 1), ?_⟩
    calc xs.take j = (xs.take j).take i ++ (xs.take j).drop i := (List.take_append_drop ..).symm
      _ = xs.take i ++ xs[i] :: (xs.take j).drop (i + 1) := by
        rw [List.take_take, Nat.min_eq_left hij.le, List.drop_eq_getElem_cons hlen,
          List.getElem_take]
  refine ⟨mid, htake, ?_⟩
  have hbefore : (xs.take i).length = i := List.length_take_of_le hi.le
  rw [List.take_add_one, hb, Option.toList_some, htake, List.append_assoc,
    List.drop_left' hbefore]

namespace Traffic.Isolated

variable {l : Limiter} {t : Traffic MemoryStore} {i j : Nat} {c c' : Count}

theorem count_eq_streak (h : Isolated l t) (hrolling : l.policy = .rolling)
    (hc : t.counts[i]? = some c) :
    c.count = streak l.window (c.time :: (times c.client (t.counts.take i)).reverse) := by
  rw [h.counted i c hc, Limiter.recount_rolling hrolling]

/-- The counts of a client are in the order of time, the present one included. -/
theorem ordered_times (h : Isolated l t) (hc : t.counts[i]? = some c) :
    (times c.client (t.counts.take i) ++ [c.time]).Pairwise (· ≤ ·) := by
  have htake : t.counts.take (i + 1) = t.counts.take i ++ [c] := by
    rw [List.take_add_one, hc, Option.toList_some]
  have hsub : (times c.client (t.counts.take i) ++ [c.time]).Sublist
      ((t.counts.take (i + 1)).map Count.time) := by
    rw [htake, List.map_append]
    exact (List.filter_sublist.map _).append_right _
  exact h.ordered.sublist (hsub.trans ((List.take_sublist _ _).map _))

/-- Without a long gap between them, the later count of a client is the greater one. -/
theorem count_lt_of_isChain (h : Isolated l t) (hrolling : l.policy = .rolling) (hij : i < j)
    (hc : t.counts[i]? = some c) (hc' : t.counts[j]? = some c') (hsame : c'.client = c.client)
    (hgaps : (times c.client ((t.counts.take (j + 1)).drop i)).IsChain
      fun a b ↦ b < a + l.window) : c.count < c'.count := by
  obtain ⟨mid, htake, hdrop⟩ := exists_between hij hc hc'
  rw [hdrop, times_append, times_cons, times_cons, if_pos rfl, if_pos hsame, times_nil] at hgaps
  -- the streak of the later count runs back over all counts between and then goes on as the
  -- streak of the earlier one
  have hback : (c'.time :: (times c.client mid).reverse ++ [c.time]).IsChain
      fun b a ↦ b < a + l.window := by
    have hreverse := List.isChain_reverse.mpr hgaps
    simpa using hreverse
  rw [h.count_eq_streak hrolling hc', hsame, htake, times_append, times_cons, if_pos rfl,
    List.reverse_append, List.reverse_cons, List.append_assoc, List.singleton_append,
    ← List.cons_append, streak_append_of_isChain hback, h.count_eq_streak hrolling hc]
  omega

/-- Within less than a window of each other, two counts of a client have no long gap between. -/
theorem isChain_of_lt (h : Isolated l t) (hij : i < j) (hc : t.counts[i]? = some c)
    (hc' : t.counts[j]? = some c') (hnear : c'.time < c.time + l.window) (client : String) :
    (times client ((t.counts.take (j + 1)).drop i)).IsChain fun a b ↦ b < a + l.window := by
  obtain ⟨mid, -, hdrop⟩ := exists_between hij hc hc'
  have hsorted : (c :: mid ++ [c']).Pairwise fun a b ↦ a.time ≤ b.time := by
    rw [← hdrop]
    exact (List.pairwise_map.mp h.ordered).sublist
      ((List.drop_sublist _ _).trans (List.take_sublist _ _))
  have hfirst : ∀ x ∈ c :: mid ++ [c'], c.time ≤ x.time := by
    intro x hx
    rcases List.mem_cons.mp hx with rfl | hx
    · exact Nat.le_refl _
    · exact (List.pairwise_cons.mp hsorted).1 x hx
  have hlast : ∀ x ∈ c :: mid ++ [c'], x.time ≤ c'.time := by
    intro x hx
    rcases List.mem_append.mp hx with hx | hx
    · exact (List.pairwise_append.mp hsorted).2.2 x hx c' (List.mem_singleton_self c')
    · rw [List.mem_singleton.mp hx]
  rw [hdrop]
  -- any two counts between are near enough, not just neighbours
  refine List.Pairwise.isChain (List.pairwise_of_forall_mem_list ?_)
  intro a ha b hb
  obtain ⟨x, hx, rfl⟩ := List.mem_map.mp ha
  obtain ⟨y, hy, rfl⟩ := List.mem_map.mp hb
  calc y.time ≤ c'.time := hlast y (List.mem_of_mem_filter hy)
    _ < c.time + l.window := hnear
    _ ≤ x.time + l.window := Nat.add_le_add_right (hfirst x (List.mem_of_mem_filter hx)) _

theorem count_pos (h : Isolated l t) (hrolling : l.policy = .rolling)
    (hc : t.counts[i]? = some c) : 0 < c.count := by
  rw [h.count_eq_streak hrolling hc]
  exact streak_cons_pos ..

theorem pairwise_count_lt (h : Isolated l t) (hrolling : l.policy = .rolling) :
    t.counts.Pairwise fun c c' ↦
      c'.client = c.client → c'.time < c.time + l.window → c.count < c'.count := by
  rw [List.pairwise_iff_getElem]
  intro i j hi hj hij hsame hnear
  have hc : t.counts[i]? = some t.counts[i] := List.getElem?_eq_getElem hi
  have hc' : t.counts[j]? = some t.counts[j] := List.getElem?_eq_getElem hj
  exact h.count_lt_of_isChain hrolling hij hc hc' hsame (h.isChain_of_lt hij hc hc' hnear _)

/-! ## Admission -/

theorem admitted_sublist (t : Traffic MemoryStore) : t.admitted.Sublist t.counts := by
  have hsub := (List.filter_sublist (l := t.counts.zipIdx)
    (p := fun e ↦ (t.verdicts.find? e.2).any Decision.admitted)).map Prod.fst
  rwa [List.zipIdx_map_fst] at hsub

theorem count_le_of_mem_admitted (h : Isolated l t) (hc : c ∈ t.admitted) :
    c.count ≤ l.limit := by
  obtain ⟨⟨c, i⟩, hmem, rfl⟩ := List.mem_map.mp hc
  obtain ⟨hplace, hverdict⟩ := List.mem_filter.mp hmem
  rw [List.mk_mem_zipIdx_iff_getElem?] at hplace
  rcases hd : t.verdicts.find? i with _ | d
  · simp [hd] at hverdict
  · obtain ⟨c', hc', hdecided, -⟩ := h.decided i d hd
    rw [hplace, Option.some.injEq] at hc'
    subst hc'
    rw [hd, Option.any_some, hdecided] at hverdict
    exact of_decide_eq_true hverdict

/-- In no half-open interval of the length of a window are more checks of a client admitted than
the limit says: their counts are different, and all of them lie between one and the limit. -/
theorem length_admitted_le (h : Isolated l t) (hrolling : l.policy = .rolling) (client : String)
    (a : Instant) :
    (t.admitted.filter fun c ↦ c.client = client ∧ a ≤ c.time ∧ c.time < a + l.window).length
      ≤ l.limit := by
  set inside := t.admitted.filter fun c ↦
    c.client = client ∧ a ≤ c.time ∧ c.time < a + l.window with hinside
  have hmem : ∀ c ∈ inside, c ∈ t.admitted ∧ c.client = client ∧ a ≤ c.time ∧
      c.time < a + l.window := by
    intro c hc
    simpa [hinside] using hc
  -- the counts inside grow, so they are different numbers up to the limit
  have hgrow : (inside.map Count.count).Pairwise (· < ·) := by
    rw [List.pairwise_map]
    have hsub : inside.Sublist t.counts := List.filter_sublist.trans (admitted_sublist t)
    refine ((h.pairwise_count_lt hrolling).sublist hsub).imp_of_mem fun {c c'} hc hc' hlt ↦ ?_
    obtain ⟨-, hclient, hstart, -⟩ := hmem c hc
    obtain ⟨-, hclient', -, hend⟩ := hmem c' hc'
    exact hlt (hclient'.trans hclient.symm)
      (Nat.lt_of_lt_of_le hend (Nat.add_le_add_right hstart l.window))
  have hrange : inside.map Count.count ⊆ List.range' 1 l.limit := by
    intro n hn
    obtain ⟨c, hc, rfl⟩ := List.mem_map.mp hn
    obtain ⟨hadmitted, -⟩ := hmem c hc
    obtain ⟨i, hi⟩ := List.getElem?_of_mem ((admitted_sublist t).subset hadmitted)
    have hpos := h.count_pos hrolling hi
    have hle := h.count_le_of_mem_admitted hadmitted
    rw [List.mem_range'_1]
    omega
  have hlength := (List.subperm_of_subset (hgrow.imp Nat.ne_of_lt) hrange).length_le
  rwa [List.length_map, List.length_range'] at hlength

end Traffic.Isolated

/-- What the rolling policy promises of a state that a run of checks has led to. -/
structure Traffic.AdmitsByChains (last : Instant) (l : Limiter) (t : Traffic MemoryStore) :
    Prop where
  /-- A check whose two steps nothing comes between is the check that the limiter makes. -/
  undisturbed : ∀ client t', t.step? last l (.count client) = some t' →
    ∃ d w, l.check client t.world = (.ok d, w) ∧
      (t'.step l (.conclude t.counts.length)).world = w ∧
      (t'.step l (.conclude t.counts.length)).verdicts.find? t.counts.length = some d
  /-- A count is the length of the longest chain of its client's counts that ends with it. -/
  count_isGreatest : ∀ i c, t.counts[i]? = some c →
    IsGreatest (chainLengths l.window (times c.client (t.counts.take i)) c.time) c.count
  /-- A check that has counted gets a verdict when it concludes. -/
  concludes : ∀ i c, t.counts[i]? = some c →
    ∃ d, (t.step l (.conclude i)).verdicts.find? i = some d
  /-- The verdict compares that length with the limit. -/
  verdict : ∀ i c d, t.counts[i]? = some c → t.verdicts.find? i = some d →
    (d.admitted = true ↔ c.count ≤ l.limit) ∧ d.remaining = l.limit - c.count
  /-- Of the checks that a client has counted in a half-open interval as long as a window, no more
  are admitted than the limit says. -/
  interval : ∀ client a,
    (t.admitted.filter fun c ↦ c.client = client ∧ a ≤ c.time ∧ c.time < a + l.window).length
      ≤ l.limit
  /-- Who is past the limit and leaves no gap of a window is not admitted again. -/
  lockout : ∀ i j c c' d, i < j → t.counts[i]? = some c → t.counts[j]? = some c' →
    c'.client = c.client → l.limit < c.count →
    (times c.client ((t.counts.take (j + 1)).drop i)).IsChain (fun a b ↦ b < a + l.window) →
    t.verdicts.find? j = some d → d.admitted = false

theorem Traffic.Isolated.admitsByChains {l : Limiter} {t : Traffic MemoryStore}
    (h : Isolated l t) (hrolling : l.policy = .rolling) (last : Instant) :
    AdmitsByChains last l t := by
  have hverdict : ∀ i c d, t.counts[i]? = some c → t.verdicts.find? i = some d →
      (d.admitted = true ↔ c.count ≤ l.limit) ∧ d.remaining = l.limit - c.count := by
    intro i c d hc hd
    obtain ⟨c', hc', hadmitted, hremaining⟩ := h.decided i d hd
    rw [hc, Option.some.injEq] at hc'
    subst hc'
    exact ⟨by rw [hadmitted, decide_eq_true_iff], hremaining⟩
  constructor
  case undisturbed => exact fun _ _ ↦ h.check
  case count_isGreatest =>
    intro i c hc
    rw [h.count_eq_streak hrolling hc]
    exact isGreatest_streak (h.ordered_times hc)
  case concludes => exact fun i c hc ↦ exists_verdict l hc
  case verdict => exact hverdict
  case interval => exact h.length_admitted_le hrolling
  case lockout =>
    intro i j c c' d hij hc hc' hsame hpast hgaps hd
    have hlt := h.count_lt_of_isChain hrolling hij hc hc' hsame hgaps
    have hnot : ¬ c'.count ≤ l.limit := by omega
    exact Bool.eq_false_iff.mpr fun hadmitted ↦ hnot ((hverdict j c' d hc' hd).1.mp hadmitted)

end Gatehouse
