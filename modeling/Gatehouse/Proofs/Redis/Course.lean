import Mathlib.Data.Finset.Card
import Gatehouse.Proofs.Redis.Paging

/-!
# A server among others

A server does not stand still while its keys are gone through page by page: others add keys and
remove keys between any two commands. A `Course` is all that happens meanwhile: the keys at every
moment, and the *turns* at which the server obeys a command of one client. Between the turns the
keys may change in any way. At a turn they change as the command says, and the reply tells how: a
page shows keys that match and removes nothing, a deletion removes the keys that it is given and
counts those that existed, and what is refused changes nothing.

Of the pages a server promises one thing, which is all that servers document. If they are a whole
cycle, from cursor to cursor and back to zero, then every matching key that was there from the first
page to the last has been shown, once or more. Other keys may be shown as well if they match; what
is added or removed meanwhile may be shown or not.

What a call of deleting by pattern is to do to the keys is said here as well, `Course.Spares` and
`Course.Purges`. That its turns are those of visits, if it succeeds, is `Serves.of_succeeded`.
-/

namespace Gatehouse.Redis

/-! ## Courses -/

/-- What a server does at a turn, and what it replies. -/
inductive Deed where
  /-- It hands out the page of a cursor. -/
  | scanned (cursor next : Nat) (shown : List Bytes)
  /-- It removes the keys that it is given and counts those that existed. -/
  | deleted (named : List Bytes) (count : Nat)
  /-- It refuses a command. -/
  | refused (command : Command) (text : String)

namespace Deed

/-- The command of a deed, where the pages are asked for by pattern. -/
def command (pattern : String) : Deed → Command
  | scanned cursor _ _ => scan cursor pattern
  | deleted named _ => utf8 "DEL" :: named
  | refused c _ => c

def reply : Deed → Reply
  | scanned _ next shown => pageReply next shown
  | deleted _ count => .int count
  | refused _ text => .error text

/-- What a deed does to the keys of a server, and what is true of its reply. -/
def Does (isMatch : Bytes → Bool) (before after : Finset Bytes) : Deed → Prop
  | scanned _ next shown =>
    after = before ∧ next < wordSize 64 ∧ ∀ key ∈ shown, isMatch key = true
  | deleted named count => after = before \ named.toFinset ∧ count = (before \ after).card
  | refused _ _ => after = before

instance (isMatch : Bytes → Bool) (before after : Finset Bytes) (d : Deed) :
    Decidable (d.Does isMatch before after) :=
  match d with
  | scanned _ _ _ => inferInstanceAs (Decidable (_ ∧ _ ∧ _))
  | deleted _ _ => inferInstanceAs (Decidable (_ ∧ _))
  | refused _ _ => inferInstanceAs (Decidable (_ = _))

def shown : Deed → List Bytes
  | scanned _ _ keys => keys
  | deleted _ _ | refused _ _ => []

/-- The cursor that was asked for and the one that was named. -/
def cursors? : Deed → Option (Nat × Nat)
  | scanned cursor next _ => some (cursor, next)
  | deleted _ _ | refused _ _ => none

def count : Deed → Nat
  | deleted _ n => n
  | scanned _ _ _ | refused _ _ => 0

end Deed

/-- A deed and its moment. -/
structure Turn where
  moment : ℕ
  deed : Deed

/-- Pages are a cycle if the first was asked for with zero, each other one with the cursor that was
named before, and zero was named with the last and not earlier. -/
def IsCycle (cursors : List (Nat × Nat)) : Prop :=
  cursors.map Prod.fst ++ [0] = 0 :: cursors.map Prod.snd ∧
    ∀ next ∈ (cursors.map Prod.snd).dropLast, next ≠ 0

/-- The pages of these turns. -/
def pagesOf (turns : List Turn) : List (Nat × Nat) := turns.filterMap fun t ↦ t.deed.cursors?

/-- The key is there from the first page of these turns to the last. -/
def Lasts (keys : ℕ → Finset Bytes) (turns : List Turn) (key : Bytes) : Prop :=
  ∀ t ∈ turns, ∀ u ∈ turns, t.deed.cursors?.isSome → u.deed.cursors?.isSome →
    ∀ m, t.moment ≤ m → m ≤ u.moment → key ∈ keys m

/-- The keys of a server at every moment, and its turns. -/
structure Course (isMatch : Bytes → Bytes → Bool) (pattern : String) where
  keys : ℕ → Finset Bytes
  turns : List Turn
  inOrder : turns.Pairwise fun t u ↦ t.moment < u.moment
  obeyed : ∀ t ∈ turns, t.deed.Does (isMatch (utf8 pattern)) (keys t.moment) (keys (t.moment + 1))
  /-- A whole cycle of pages shows every matching key that is there from the first to the last. -/
  complete : IsCycle (pagesOf turns) → ∀ key, isMatch (utf8 pattern) key = true →
    Lasts keys turns key → ∃ t ∈ turns, key ∈ t.deed.shown

namespace Course

variable {isMatch : Bytes → Bytes → Bool} {pattern : String} (c : Course isMatch pattern)

def replies : List Reply := c.turns.map fun t ↦ t.deed.reply

def commands : List Command := c.turns.map fun t ↦ t.deed.command pattern

/-- The turns are those of a call of deleting by pattern, as far as it has come. -/
def IsCall : Prop := c.commands <+: (deleteByPattern pattern c.replies).sent

/-- The keys that are removed at a moment. -/
def lost (m : ℕ) : Finset Bytes := c.keys m \ c.keys (m + 1)

/-- At a moment no key is added, and none is removed that does not match. -/
def SparesAt (m : ℕ) : Prop :=
  c.keys (m + 1) ⊆ c.keys m ∧ ∀ key ∈ c.lost m, isMatch (utf8 pattern) key = true

/-- The turns spare what does not match. -/
def Spares : Prop := ∀ t ∈ c.turns, c.SparesAt t.moment

/-- Nobody but the call changes anything. -/
def IsQuiet : Prop := ∀ m, (∀ t ∈ c.turns, t.moment ≠ m) → c.keys (m + 1) = c.keys m

/-- What it means that the answer to a call is `n`. -/
structure Purges (n : Nat) : Prop where
  /-- Every matching key that was there from the first page to the last is gone after some turn. -/
  gone : ∀ key, isMatch (utf8 pattern) key = true → Lasts c.keys c.turns key →
    ∃ t ∈ c.turns, key ∉ c.keys (t.moment + 1)
  /-- It is not there in the end either, unless it is added again. -/
  absent : ∀ key, isMatch (utf8 pattern) key = true → Lasts c.keys c.turns key →
    (∀ m, key ∉ c.keys m → key ∉ c.keys (m + 1)) →
    ∀ stop, (∀ t ∈ c.turns, t.moment < stop) → key ∉ c.keys stop
  /-- The answer is how many keys the turns have removed. -/
  counted : n = wrapped (c.turns.map fun t ↦ (c.lost t.moment).card).sum
  /-- If nobody else changes anything, the matching keys are gone, and the answer is how many there
  were. -/
  alone : c.IsQuiet → ∀ start stop, start ≤ stop →
    (∀ t ∈ c.turns, start ≤ t.moment ∧ t.moment < stop) →
    c.keys stop = (c.keys start).filter (fun key ↦ ¬ isMatch (utf8 pattern) key = true) ∧
      n = wrapped ((c.keys start).filter fun key ↦ isMatch (utf8 pattern) key = true).card

end Course

/-! ## What is heard of what is done -/

section Heard

variable {pattern : String} {next : Nat} {shown : List Bytes} {keys : List String}

theorem ok_of_understood {α : Type} {read? : Reply → Option α} {r : Reply} {a : α}
    (h : understood read? r = .ok a) : read? r = some a := by
  rw [understood] at h
  split at h
  · cases h
  · split at h
    · cases h
    · next hread =>
      obtain rfl := Except.ok.inj h
      exact hread

/-- Keys that are read as texts are the octets of these texts. -/
theorem map_utf8_of_mapM_text? (h : (shown.map Reply.bulk).mapM Reply.text? = some keys) :
    shown = keys.map utf8 := by
  induction shown generalizing keys with
  | nil =>
    obtain rfl := Option.some.inj h
    rfl
  | cons b shown ih =>
    rw [List.map_cons, List.mapM_cons] at h
    obtain ⟨text, htext, h⟩ := Option.bind_eq_some_iff.mp h
    obtain ⟨texts, htexts, h⟩ := Option.bind_eq_some_iff.mp h
    obtain rfl := Option.some.inj h
    rw [List.map_cons, utf8_of_ofUtf8? htext, ih htexts]

/-- A page that a server hands out is read as what it says, if it is read at all. -/
theorem eq_of_page?_pageReply {named : Nat} (hnext : next < wordSize 64)
    (h : (pageReply next shown).page? = some (named, keys)) :
    named = next ∧ shown = keys.map utf8 := by
  rw [pageReply, Reply.page?, Reply.word?_integerOctets hnext, Reply.texts?] at h
  rcases htexts : (shown.map Reply.bulk).mapM Reply.text? with _ | texts
  · rw [htexts] at h
    cases h
  · rw [htexts] at h
    obtain ⟨rfl, rfl⟩ := Prod.mk.inj (Option.some.inj h)
    exact ⟨rfl, map_utf8_of_mapM_text? htexts⟩

namespace Deed

variable {isMatch : Bytes → Bool} {before after : Finset Bytes} {d : Deed}

/-- What is read as a page comes from handing one out. -/
theorem eq_scanned (hd : d.Does isMatch before after)
    (h : understood Reply.page? d.reply = .ok (next, keys)) :
    ∃ cursor, d = scanned cursor next (keys.map utf8) := by
  rcases d with ⟨cursor, named, shown⟩ | ⟨named, n⟩ | ⟨c, text⟩
  · obtain ⟨rfl, rfl⟩ := eq_of_page?_pageReply hd.2.1 (ok_of_understood h)
    exact ⟨cursor, rfl⟩
  · cases h
  · cases h

/-- What is read as a count comes from deleting. -/
theorem eq_deleted {n : Nat} (h : understood (Reply.word? 64) d.reply = .ok n) :
    ∃ named m, d = deleted named m ∧ n = wrapped m := by
  rcases d with ⟨cursor, next, shown⟩ | ⟨named, m⟩ | ⟨c, text⟩
  · cases ok_of_understood h
  · rw [reply, understood_word?] at h
    exact ⟨named, m, rfl, (Except.ok.inj h).symm⟩
  · cases h

theorem scan_inj {cursor cursor' : Nat} (h : scan cursor pattern = scan cursor' pattern) :
    cursor = cursor' := by
  have hparse := congrArg Request.parse? h
  rw [parse?_scan, parse?_scan] at hparse
  exact (Order.scan.inj (Request.order.inj (Option.some.inj hparse))).1

theorem scan_ne_del (cursor : Nat) (keys : List Bytes) :
    scan cursor pattern ≠ utf8 "DEL" :: keys := by
  intro h
  exact absurd (utf8_inj.mp (List.cons.inj h).1) (by decide)

/-- The page of a cursor that was asked for is the page of that cursor. -/
theorem eq_scanned_of_scan {cursor : Nat} (hd : d.Does isMatch before after)
    (hcommand : d.command pattern = scan cursor pattern)
    (h : understood Reply.page? d.reply = .ok (next, keys)) :
    d = scanned cursor next (keys.map utf8) := by
  obtain ⟨cursor', rfl⟩ := eq_scanned hd h
  rw [scan_inj hcommand]

/-- The keys that are counted are those that were to be deleted. -/
theorem eq_deleted_of_del {n : Nat} (hcommand : d.command pattern = del keys)
    (h : understood (Reply.word? 64) d.reply = .ok n) :
    ∃ m, d = deleted (keys.map utf8) m ∧ n = wrapped m := by
  obtain ⟨named, m, rfl, hn⟩ := eq_deleted h
  obtain ⟨-, rfl⟩ : utf8 "DEL" = utf8 "DEL" ∧ named = keys.map utf8 := List.cons.inj hcommand
  exact ⟨m, rfl, hn⟩

end Deed

end Heard

/-! ## Turns that serve visits -/

/-- The turns are those of the visits, each of which has succeeded. -/
inductive Serves : List Turn → List Visit → Prop where
  | nil : Serves [] []
  | empty {t : Turn} {v : Visit} {turns : List Turn} {visits : List Visit}
    (ht : t.deed = .scanned v.cursor v.next []) (hremoved : v.removed = 0)
    (h : Serves turns visits) : Serves (t :: turns) (v :: visits)
  | full {t u : Turn} {v : Visit} {n : Nat} {turns : List Turn} {visits : List Visit}
    (ht : t.deed = .scanned v.cursor v.next (v.keys.map utf8))
    (hu : u.deed = .deleted (v.keys.map utf8) n) (hremoved : v.removed = wrapped n)
    (h : Serves turns visits) : Serves (t :: u :: turns) (v :: visits)

namespace Serves

variable {turns : List Turn} {visits : List Visit}

/-- The pages are those of the visits. -/
theorem pagesOf_eq (h : Serves turns visits) :
    pagesOf turns = visits.map fun v ↦ (v.cursor, v.next) := by
  induction h with
  | nil => rfl
  | empty ht _ _ ih =>
    rw [pagesOf, List.filterMap_cons, ht, List.map_cons, ← ih]
    rfl
  | full ht hu _ _ ih =>
    rw [pagesOf, List.filterMap_cons, ht, List.map_cons, ← ih, pagesOf, List.filterMap_cons, hu]
    rfl

/-- What is shown is deleted. -/
theorem exists_deleted (h : Serves turns visits) {t : Turn} (ht : t ∈ turns) {key : Bytes}
    (hkey : key ∈ t.deed.shown) :
    ∃ u ∈ turns, ∃ named n, u.deed = .deleted named n ∧ key ∈ named := by
  induction h with
  | nil => cases ht
  | empty hscan _ _ ih =>
    rcases List.mem_cons.mp ht with rfl | hmem
    · rw [hscan] at hkey
      cases hkey
    · obtain ⟨u, hu, hdeleted⟩ := ih hmem
      exact ⟨u, List.mem_cons_of_mem _ hu, hdeleted⟩
  | @full t' u v n _ _ hscan hdel _ _ ih =>
    rcases List.mem_cons.mp ht with rfl | hmem
    · rw [hscan] at hkey
      exact ⟨u, List.mem_cons_of_mem _ List.mem_cons_self, _, n, hdel, hkey⟩
    rcases List.mem_cons.mp hmem with rfl | hmem
    · rw [hdel] at hkey
      cases hkey
    · obtain ⟨u', hu', hdeleted⟩ := ih hmem
      exact ⟨u', List.mem_cons_of_mem _ (List.mem_cons_of_mem _ hu'), hdeleted⟩

/-- What is counted at the turns is what is added up. -/
theorem sum_count (h : Serves turns visits) :
    wrapped (turns.map fun t ↦ t.deed.count).sum = wrapped (visits.map Visit.removed).sum := by
  induction h with
  | nil => rfl
  | empty ht hremoved _ ih =>
    rw [List.map_cons, List.sum_cons, ht, List.map_cons, List.sum_cons, hremoved, Nat.zero_add,
      ← ih, Deed.count, Nat.zero_add]
  | full ht hu hremoved _ ih =>
    rw [List.map_cons, List.sum_cons, ht, Deed.count, Nat.zero_add, List.map_cons, List.sum_cons,
      hu, Deed.count, List.map_cons, List.sum_cons, hremoved, wrapped_wrapped_add, ← wrapped_add,
      ih, wrapped_add]

section Succeeded

variable {pattern : String} {isMatch : Bytes → Bool} {keys : ℕ → Finset Bytes}

/-- Where there is a command and a reply, there is a turn. -/
theorem exists_turn {c : Command} {commands : List Command} {r : Reply} {replies : List Reply}
    (hcommands : turns.map (fun t ↦ t.deed.command pattern) = c :: commands)
    (hreplies : turns.map (fun t ↦ t.deed.reply) = r :: replies) :
    ∃ t rest, turns = t :: rest ∧ t.deed.command pattern = c ∧ t.deed.reply = r ∧
      rest.map (fun t ↦ t.deed.command pattern) = commands ∧
      rest.map (fun t ↦ t.deed.reply) = replies := by
  obtain ⟨t, rest, rfl, hreply, hreplies'⟩ := List.map_eq_cons_iff.mp hreplies
  obtain ⟨hcommand, hcommands'⟩ := List.cons.inj hcommands
  exact ⟨t, rest, rfl, hcommand, hreply, hcommands', hreplies'⟩

variable (hobeyed : ∀ t ∈ turns, t.deed.Does isMatch (keys t.moment) (keys (t.moment + 1)))

include hobeyed

/-- Turns with the commands and the replies of a visit that has succeeded begin with its own. -/
theorem exists_rest {v : Visit} {commands : List Command} {replies : List Reply} (hv : v.Succeeds)
    (hcommands : turns.map (fun t ↦ t.deed.command pattern) = v.commands pattern ++ commands)
    (hreplies : turns.map (fun t ↦ t.deed.reply) = v.replies ++ replies) :
    ∃ rest, rest.map (fun t ↦ t.deed.command pattern) = commands ∧
      rest.map (fun t ↦ t.deed.reply) = replies ∧ rest ⊆ turns ∧
      ∀ visits, Serves rest visits → Serves turns (v :: visits) := by
  rw [Visit.commands, visitCommands] at hcommands
  rcases hv with ⟨page, hv, hpage, hkeys, hremoved⟩ | ⟨page, count, hv, hpage, hkeys, hcount⟩
  · rw [if_pos hkeys] at hcommands
    rw [hv] at hreplies
    obtain ⟨t, rest, rfl, hscan, rfl, hcommands', hreplies'⟩ := exists_turn hcommands hreplies
    have ht := Deed.eq_scanned_of_scan (hobeyed t List.mem_cons_self) hscan hpage
    rw [hkeys] at ht
    exact ⟨rest, hcommands', hreplies', List.subset_cons_self t rest,
      fun visits h ↦ .empty ht hremoved h⟩
  · rw [if_neg hkeys] at hcommands
    rw [hv] at hreplies
    obtain ⟨t, turns', rfl, hscan, rfl, hcommands', hreplies'⟩ := exists_turn hcommands hreplies
    obtain ⟨u, rest, rfl, hdel, rfl, hcommands'', hreplies''⟩ := exists_turn hcommands' hreplies'
    have ht := Deed.eq_scanned_of_scan (hobeyed t List.mem_cons_self) hscan hpage
    obtain ⟨n, hu, hremoved⟩ := Deed.eq_deleted_of_del hdel hcount
    refine ⟨rest, hcommands'', hreplies'', ?_, fun visits h ↦ .full ht hu hremoved h⟩
    exact List.Subset.trans (List.subset_cons_self u rest) (List.subset_cons_self t (u :: rest))

/-- Turns with the commands and the replies of visits that have succeeded are theirs. -/
theorem of_succeeded (hvisits : ∀ v ∈ visits, v.Succeeds)
    (hcommands : turns.map (fun t ↦ t.deed.command pattern)
      = visits.flatMap (Visit.commands pattern))
    (hreplies : turns.map (fun t ↦ t.deed.reply) = visits.flatMap Visit.replies) :
    Serves turns visits := by
  induction visits generalizing turns with
  | nil =>
    obtain rfl := List.map_eq_nil_iff.mp hreplies
    exact .nil
  | cons v visits ih =>
    rw [List.forall_mem_cons] at hvisits
    rw [List.flatMap_cons] at hcommands hreplies
    obtain ⟨rest, hcommands', hreplies', hsub, hserves⟩ :=
      exists_rest hobeyed hvisits.1 hcommands hreplies
    exact hserves visits
      (ih (fun t ht ↦ hobeyed t (hsub ht)) hvisits.2 hcommands' hreplies')

end Succeeded

end Serves

end Gatehouse.Redis
