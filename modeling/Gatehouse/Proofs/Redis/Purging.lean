import Mathlib.Algebra.BigOperators.Intervals
import Gatehouse.Proofs.Redis.Course

/-!
# Deleting by pattern among others

What a call of deleting by pattern does to a server that others use as well, and what its answer
means, is the subject of this module. **`deleteByPattern_goesThrough`** has two parts. The first is
about the call alone, for every list of replies. The second is about every course whose commands are
those of the call.

However far the call has come and whatever comes of it, it removes none but matching keys: what it
deletes was on a page, and pages show nothing else. If it succeeds, its pages are a whole cycle, so
each matching key that was there all the time was shown, and what is shown is deleted at the next
turn. The answer is the number of keys that the turns have removed, in a word of 64 bits. A key that
is shown twice is removed once, and so it counts once. Where nobody else takes part, just the
matching keys are gone in the end, and the answer is how many there were.

Words of 64 bits and texts are where a reply may say more than the call can hear: it may be a
negative number or a key that is no text, `not_heard_as_said`.
-/

namespace Gatehouse.Redis

/-! ## What a call does -/

namespace GoesThrough

variable {pattern : String} {deleted : Nat} {replies : List Reply} {x : Exchange Nat}
  {done : List Visit} {last : Visit}

/-- The visits of a call that succeeds are a cycle. -/
theorem isCycle (h : GoesThrough pattern 0 deleted replies x done last) (hzero : last.next = 0) :
    IsCycle ((done ++ [last]).map fun v ↦ (v.cursor, v.next)) := by
  have hcursors : ((done ++ [last]).map fun v ↦ (v.cursor, v.next)).map Prod.fst
      = 0 :: done.map Visit.next := by
    rw [List.map_map]
    exact h.asked
  have hnexts : ((done ++ [last]).map fun v ↦ (v.cursor, v.next)).map Prod.snd
      = done.map Visit.next ++ [0] := by
    rw [List.map_map, List.map_append, ← hzero]
    rfl
  rw [IsCycle, hcursors, hnexts, List.dropLast_concat]
  refine ⟨rfl, fun next hnext ↦ ?_⟩
  obtain ⟨v, hv, rfl⟩ := List.mem_map.mp hnext
  exact (h.wentOn v hv).2

end GoesThrough

namespace Course

variable {isMatch : Bytes → Bytes → Bool} {pattern : String} {c : Course isMatch pattern} {n : Nat}

theorem lost_eq_empty {m : ℕ} (h : c.keys (m + 1) = c.keys m) : c.lost m = ∅ := by
  rw [lost, h, Finset.sdiff_self]

theorem sparesAt_of_eq {m : ℕ} (h : c.keys (m + 1) = c.keys m) : c.SparesAt m := by
  rw [SparesAt, lost_eq_empty h, h]
  exact ⟨subset_rfl, fun key hkey ↦ absurd hkey (Finset.notMem_empty key)⟩

/-- A turn removes what it was told to delete, or nothing. -/
theorem turn_cases {t : Turn} (ht : t ∈ c.turns) :
    (c.keys (t.moment + 1) = c.keys t.moment ∧ t.deed.count = 0) ∨
      ∃ named, t.deed = .deleted named (c.lost t.moment).card ∧
        c.keys (t.moment + 1) = c.keys t.moment \ named.toFinset := by
  have hdoes := c.obeyed t ht
  rcases hdeed : t.deed with ⟨cursor, next, shown⟩ | ⟨named, m⟩ | ⟨command, text⟩ <;>
    rw [hdeed] at hdoes
  · exact .inl ⟨hdoes.1, rfl⟩
  · obtain ⟨hkeys, rfl⟩ := hdoes
    exact .inr ⟨named, rfl, hkeys⟩
  · exact .inl ⟨hdoes, rfl⟩

/-- A turn counts what it removes. -/
theorem count_eq {t : Turn} (ht : t ∈ c.turns) : t.deed.count = (c.lost t.moment).card := by
  rcases turn_cases ht with ⟨hkeys, hcount⟩ | ⟨named, hdeed, -⟩
  · rw [hcount, lost_eq_empty hkeys, Finset.card_empty]
  · rw [hdeed, Deed.count]

theorem goesThrough_replies (c : Course isMatch pattern) :
    ∃ done last, GoesThrough pattern 0 0 c.replies (deleteByPattern pattern c.replies) done last :=
  exists_goesThrough pattern 0 0 c.replies

/-- What is deleted at a turn of a call was shown before, and what is shown matches. -/
theorem IsCall.isMatch_of_deleted (hcall : c.IsCall) {t : Turn} (ht : t ∈ c.turns)
    {named : List Bytes} {m : Nat} (hdeed : t.deed = .deleted named m) {key : Bytes}
    (hkey : key ∈ named) : isMatch (utf8 pattern) key = true := by
  obtain ⟨done, last, h⟩ := goesThrough_replies c
  have hsent : t.deed.command pattern ∈ (done ++ [last]).flatMap (Visit.commands pattern) := by
    rw [← h.sent]
    exact hcall.subset (List.mem_map_of_mem ht)
  obtain ⟨v, hv, hmem⟩ := List.mem_flatMap.mp hsent
  rw [hdeed, Visit.commands, visitCommands, Deed.command] at hmem
  rcases List.mem_cons.mp hmem with hscan | hmem
  · exact absurd hscan.symm (Deed.scan_ne_del v.cursor named)
  by_cases hkeys : v.keys = []
  · rw [if_pos hkeys] at hmem
    cases hmem
  · rw [if_neg hkeys, List.mem_singleton] at hmem
    obtain ⟨page, hpage, hread⟩ := Visit.exists_page (h.succeeds_or_fails hv) hkeys
    have hheard : page ∈ c.replies := by
      rw [h.heard]
      exact List.mem_append_left _ (List.mem_flatMap.mpr ⟨v, hv, hpage⟩)
    obtain ⟨u, hu, rfl⟩ := List.mem_map.mp hheard
    obtain ⟨cursor, hshown⟩ := Deed.eq_scanned (c.obeyed u hu) hread
    have hdoes := c.obeyed u hu
    rw [hshown] at hdoes
    rw [(List.cons.inj hmem).2] at hkey
    exact hdoes.2.2 key hkey

/-- At the turns of a call no key is added, and none but matching keys are removed. -/
theorem IsCall.spares (hcall : c.IsCall) : c.Spares := by
  intro t ht
  rcases turn_cases ht with ⟨hkeys, -⟩ | ⟨named, hdeed, hkeys⟩
  · exact sparesAt_of_eq hkeys
  · refine ⟨hkeys ▸ Finset.sdiff_subset, fun key hkey ↦ ?_⟩
    have hnamed : key ∈ named := by
      rw [lost, hkeys, Finset.mem_sdiff, Finset.mem_sdiff, List.mem_toFinset] at hkey
      by_contra habsent
      exact hkey.2 ⟨hkey.1, habsent⟩
    exact hcall.isMatch_of_deleted ht hdeed hnamed

/-- The turns of a call that succeeds are those of visits that are a cycle. -/
theorem IsCall.exists_serves (hcall : c.IsCall)
    (hok : (deleteByPattern pattern c.replies).outcome = .ok n) :
    ∃ visits, Serves c.turns visits ∧ IsCycle (pagesOf c.turns) ∧
      n = wrapped (visits.map Visit.removed).sum := by
  obtain ⟨done, last, h⟩ := goesThrough_replies c
  obtain ⟨hsucceeds, hzero, hn⟩ := h.of_ok hok
  have hprefix : c.commands <+: (done ++ [last]).flatMap (Visit.commands pattern) :=
    h.sent ▸ hcall
  -- there are as many replies as turns, so every command is obeyed and no reply is left over
  have hlengths : ((done ++ [last]).flatMap (Visit.commands pattern)).length
      = ((done ++ [last]).flatMap Visit.replies).length := by
    rw [List.length_flatMap, List.length_flatMap]
    exact congrArg List.sum
      (List.map_congr_left fun v hv ↦ (hsucceeds v hv).length_commands pattern)
  have hturns : c.replies.length = c.commands.length := by
    rw [replies, commands, List.length_map, List.length_map]
  have hall := (congrArg List.length h.heard).trans List.length_append
  have hle := hprefix.length_le
  have hcommands : c.commands = (done ++ [last]).flatMap (Visit.commands pattern) :=
    hprefix.eq_of_length (by omega)
  have hunread : (deleteByPattern pattern c.replies).unread = [] :=
    List.length_eq_zero_iff.mp (by omega)
  have hreplies : c.replies = (done ++ [last]).flatMap Visit.replies := by
    have hheard := h.heard
    rwa [hunread, List.append_nil] at hheard
  have hserves := Serves.of_succeeded c.obeyed hsucceeds hcommands hreplies
  refine ⟨done ++ [last], hserves, ?_, ?_⟩
  · rw [hserves.pagesOf_eq]
    exact h.isCycle hzero
  · rw [hn, Nat.zero_add]

section Success

variable (hcall : c.IsCall) (hok : (deleteByPattern pattern c.replies).outcome = .ok n)

include hcall hok

theorem exists_gone {key : Bytes} (hmatch : isMatch (utf8 pattern) key = true)
    (hlasts : Lasts c.keys c.turns key) : ∃ t ∈ c.turns, key ∉ c.keys (t.moment + 1) := by
  obtain ⟨visits, hserves, hcycle, -⟩ := hcall.exists_serves hok
  obtain ⟨t, ht, hshown⟩ := c.complete hcycle key hmatch hlasts
  obtain ⟨u, hu, named, m, hdeed, hnamed⟩ := hserves.exists_deleted ht hshown
  have hdoes := c.obeyed u hu
  rw [hdeed] at hdoes
  refine ⟨u, hu, ?_⟩
  rw [hdoes.1, Finset.mem_sdiff, List.mem_toFinset]
  exact fun h ↦ h.2 hnamed

theorem absent_of_lasts {key : Bytes} (hmatch : isMatch (utf8 pattern) key = true)
    (hlasts : Lasts c.keys c.turns key) (hadded : ∀ m, key ∉ c.keys m → key ∉ c.keys (m + 1))
    {stop : ℕ} (hstop : ∀ t ∈ c.turns, t.moment < stop) : key ∉ c.keys stop := by
  obtain ⟨t, ht, hgone⟩ := exists_gone hcall hok hmatch hlasts
  exact Nat.le_induction (P := fun m _ ↦ key ∉ c.keys m) hgone (fun m _ ↦ hadded m) stop
    (hstop t ht)

theorem counted_eq : n = wrapped (c.turns.map fun t ↦ (c.lost t.moment).card).sum := by
  obtain ⟨visits, hserves, -, hn⟩ := hcall.exists_serves hok
  rw [hn, ← hserves.sum_count]
  exact congrArg (fun l ↦ wrapped l.sum) (List.map_congr_left fun t ht ↦ count_eq ht)

end Success

/-! ### Alone with the server -/

section Quiet

variable (hspares : c.Spares) (hquiet : c.IsQuiet)

include hspares hquiet

/-- At every moment keys are only removed, and only matching ones. -/
theorem sparesAt_of_quiet (m : ℕ) : c.SparesAt m := by
  by_cases hturn : ∃ t ∈ c.turns, t.moment = m
  · obtain ⟨t, ht, rfl⟩ := hturn
    exact hspares t ht
  · exact sparesAt_of_eq (hquiet m fun t ht htm ↦ hturn ⟨t, ht, htm⟩)

theorem antitone_keys : Antitone c.keys :=
  antitone_nat_of_succ_le fun m ↦ (sparesAt_of_quiet hspares hquiet m).1

/-- What does not match stays. -/
theorem mem_keys_of_not_isMatch {start stop : ℕ} (hle : start ≤ stop) {key : Bytes}
    (hkey : key ∈ c.keys start) (hmatch : ¬ isMatch (utf8 pattern) key = true) :
    key ∈ c.keys stop := by
  refine Nat.le_induction (P := fun m _ ↦ key ∈ c.keys m) hkey (fun m _ hmem ↦ ?_) stop hle
  by_contra hlost
  exact hmatch ((sparesAt_of_quiet hspares hquiet m).2 key (Finset.mem_sdiff.mpr ⟨hmem, hlost⟩))

theorem sum_lost_add {start stop : ℕ} (hle : start ≤ stop) :
    ∑ m ∈ Finset.Ico start stop, (c.lost m).card + (c.keys stop).card
      = (c.keys start).card := by
  induction stop, hle using Nat.le_induction with
  | base => rw [Finset.Ico_self, Finset.sum_empty, Nat.zero_add]
  | succ m hm ih =>
    rw [Finset.sum_Ico_succ_top hm, Nat.add_assoc, lost,
      Finset.card_sdiff_add_card_eq_card (sparesAt_of_quiet hspares hquiet m).1, ih]

omit hspares in
/-- Nothing is lost but at the turns. -/
theorem sum_lost_turns {start stop : ℕ}
    (hwithin : ∀ t ∈ c.turns, start ≤ t.moment ∧ t.moment < stop) :
    (c.turns.map fun t ↦ (c.lost t.moment).card).sum
      = ∑ m ∈ Finset.Ico start stop, (c.lost m).card := by
  have hnodup : (c.turns.map Turn.moment).Nodup :=
    List.pairwise_map.mpr (c.inOrder.imp fun hlt ↦ Nat.ne_of_lt hlt)
  have hsum := List.sum_toFinset (fun m ↦ (c.lost m).card) hnodup
  rw [List.map_map] at hsum
  refine hsum.symm.trans (Finset.sum_subset ?_ fun m _ hm ↦ ?_)
  · intro m hm
    obtain ⟨t, ht, rfl⟩ := List.mem_map.mp (List.mem_toFinset.mp hm)
    exact Finset.mem_Ico.mpr (hwithin t ht)
  · have hkeys : c.keys (m + 1) = c.keys m := hquiet m fun t ht htm ↦
      hm (List.mem_toFinset.mpr (List.mem_map.mpr ⟨t, ht, htm⟩))
    rw [lost_eq_empty hkeys, Finset.card_empty]

end Quiet

/-- What a call that succeeds does to a server that nobody else changes. -/
theorem keys_of_quiet (hcall : c.IsCall)
    (hok : (deleteByPattern pattern c.replies).outcome = .ok n) (hquiet : c.IsQuiet)
    {start stop : ℕ} (hle : start ≤ stop)
    (hwithin : ∀ t ∈ c.turns, start ≤ t.moment ∧ t.moment < stop) :
    c.keys stop = (c.keys start).filter fun key ↦ ¬ isMatch (utf8 pattern) key = true := by
  have hantitone := antitone_keys hcall.spares hquiet
  ext key
  rw [Finset.mem_filter]
  constructor
  · intro hkey
    refine ⟨hantitone hle hkey, fun hmatch ↦ ?_⟩
    -- a matching key that is left would have been there all the time
    have hlasts : Lasts c.keys c.turns key := fun t _ u hu _ _ m _ hm ↦
      hantitone (Nat.le_of_lt (Nat.lt_of_le_of_lt hm (hwithin u hu).2)) hkey
    obtain ⟨t, ht, hgone⟩ := exists_gone hcall hok hmatch hlasts
    exact hgone (hantitone (hwithin t ht).2 hkey)
  · rintro ⟨hkey, hmatch⟩
    exact mem_keys_of_not_isMatch hcall.spares hquiet hle hkey hmatch

theorem counted_of_quiet (hcall : c.IsCall)
    (hok : (deleteByPattern pattern c.replies).outcome = .ok n) (hquiet : c.IsQuiet)
    {start stop : ℕ} (hle : start ≤ stop)
    (hwithin : ∀ t ∈ c.turns, start ≤ t.moment ∧ t.moment < stop) :
    n = wrapped ((c.keys start).filter fun key ↦ isMatch (utf8 pattern) key = true).card := by
  have hsum := sum_lost_add hcall.spares hquiet hle
  have hparts := Finset.card_filter_add_card_filter_not (s := c.keys start)
    fun key ↦ isMatch (utf8 pattern) key = true
  rw [keys_of_quiet hcall hok hquiet hle hwithin] at hsum
  rw [counted_eq hcall hok, sum_lost_turns hquiet hwithin]
  exact congrArg wrapped (Nat.add_right_cancel (hsum.trans hparts.symm))

theorem IsCall.purges (hcall : c.IsCall)
    (hok : (deleteByPattern pattern c.replies).outcome = .ok n) : c.Purges n where
  gone _ hmatch hlasts := exists_gone hcall hok hmatch hlasts
  absent _ hmatch hlasts hadded _ hstop := absent_of_lasts hcall hok hmatch hlasts hadded hstop
  counted := counted_eq hcall hok
  alone hquiet _ _ hle hwithin :=
    ⟨keys_of_quiet hcall hok hquiet hle hwithin, counted_of_quiet hcall hok hquiet hle hwithin⟩

end Course

/-! ## The call -/

/-- **Deleting by pattern**, whatever is replied and whatever others do meanwhile. -/
theorem deleteByPattern_goesThrough (pattern : String) :
    (∀ replies, ∃ done last,
      GoesThrough pattern 0 0 replies (deleteByPattern pattern replies) done last) ∧
    ∀ (isMatch : Bytes → Bytes → Bool) (c : Course isMatch pattern), c.IsCall →
      c.Spares ∧ ∀ n, (deleteByPattern pattern c.replies).outcome = .ok n → c.Purges n :=
  ⟨fun replies ↦ exists_goesThrough pattern 0 0 replies,
    fun _ _ hcall ↦ ⟨hcall.spares, fun _ hok ↦ hcall.purges hok⟩⟩

/-! ### A call among others -/

/-- The keys of a server at which somebody else adds a key while it is gone through. -/
def busyKeys (m : ℕ) : Finset Bytes :=
  if m < 2 then {utf8 "c:a", utf8 "c:b", utf8 "x"}
  else if m < 4 then {utf8 "c:a", utf8 "c:b", utf8 "c:new", utf8 "x"}
  else {utf8 "c:new", utf8 "x"}

/-- The first page is empty, but it names a cursor; the second shows a key twice. -/
def busyTurns : List Turn :=
  [⟨0, .scanned 0 7 []⟩, ⟨2, .scanned 7 0 [utf8 "c:a", utf8 "c:b", utf8 "c:a"]⟩,
    ⟨3, .deleted [utf8 "c:a", utf8 "c:b", utf8 "c:a"] 2⟩]

def busy : Course (fun pattern key ↦ Glob.accepts (Glob.pieces pattern) key) "c:*" where
  keys := busyKeys
  turns := busyTurns
  inOrder := by decide
  obeyed := by decide +kernel
  complete := by
    intro _ key hmatch hlasts
    have hshown : ∀ key ∈ busyKeys 0, Glob.accepts (Glob.pieces (utf8 "c:*")) key = true →
        ∃ t ∈ busyTurns, key ∈ t.deed.shown := by decide +kernel
    have hfirst : (⟨0, .scanned 0 7 []⟩ : Turn) ∈ busyTurns := List.mem_cons_self
    exact hshown key (hlasts _ hfirst _ hfirst rfl rfl 0 (Nat.le_refl 0) (Nat.le_refl 0)) hmatch

/-- Two keys of the three that were shown are counted, and the one that was added stays. -/
theorem deleteByPattern_goesThrough_busy :
    busy.IsCall ∧ (deleteByPattern "c:*" busy.replies).outcome = .ok 2 ∧
      Lasts busy.keys busy.turns (utf8 "c:a") ∧ busy.Spares ∧ busy.Purges 2 := by
  have hcall : busy.IsCall := by
    have hsent : busy.commands = (deleteByPattern "c:*" busy.replies).sent := by decide +kernel
    rw [Course.IsCall, hsent]
  have hok : (deleteByPattern "c:*" busy.replies).outcome = .ok 2 := by decide +kernel
  have hlasts : Lasts busy.keys busy.turns (utf8 "c:a") := by
    intro t _ u hu _ hpage m _ hm
    have hlast : ∀ u ∈ busyTurns, u.deed.cursors?.isSome → u.moment ≤ 2 := by decide +kernel
    have hthere : ∀ m < 3, utf8 "c:a" ∈ busyKeys m := by decide +kernel
    exact hthere m (Nat.lt_succ_of_le (Nat.le_trans hm (hlast u hu hpage)))
  obtain ⟨hspares, hpurges⟩ := (deleteByPattern_goesThrough "c:*").2 _ busy hcall
  exact ⟨hcall, hok, hlasts, hspares, hpurges 2 hok⟩

/-- What is said may be more than what can be heard. A key that is no text makes its page
unintelligible, and then nothing is deleted, though no reply is an error. Cursors and counts are
heard as words of 64 bits, negative ones too, and so is the sum of the counts. And nothing may be
said at all. -/
theorem not_heard_as_said :
    (let replies : List Reply := [pageReply 0 [utf8 "c:a", [0xff]], .int 2];
      (∀ r ∈ replies, r.error? = none) ∧
      (deleteByPattern "c:*" replies).sent = [scan 0 "c:*"] ∧
      (deleteByPattern "c:*" replies).outcome = .error .unexpected) ∧
    (let replies : List Reply :=
      [.array [.int (-1), .array [.bulk (utf8 "c:a")]], .int (-1), pageReply 0 []];
      (deleteByPattern "c:*" replies).sent =
        [scan 0 "c:*", del ["c:a"], scan 18446744073709551615 "c:*"] ∧
      (deleteByPattern "c:*" replies).outcome = .ok 18446744073709551615) ∧
    (let replies : List Reply := [pageReply 5 [utf8 "c:a"], .bulk (utf8 "18446744073709551615"),
      pageReply 0 [utf8 "c:b"], .int 1];
      (deleteByPattern "c:*" replies).outcome = .ok 0) ∧
    (deleteByPattern "c:*" []).outcome = .error .closed := by
  refine ⟨⟨?_, by decide +kernel, by decide +kernel⟩, ⟨by decide +kernel, by decide +kernel⟩,
    by decide +kernel, rfl⟩
  intro r hr
  rcases List.mem_cons.mp hr with rfl | hr
  · simp [pageReply, Reply.error?, Reply.errorAmong?]
  · obtain rfl := List.mem_singleton.mp hr
    rfl

end Gatehouse.Redis
