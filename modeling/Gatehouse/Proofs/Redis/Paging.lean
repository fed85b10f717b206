import Mathlib.Algebra.GroupWithZero.Nat
import Gatehouse.Proofs.Redis.Deleting

/-!
# Page after page, whatever is replied

Deleting by pattern goes on for as long as the replies say. A *visit* is what is made of one page:
what was asked for, the replies that were used up, and what they were read as. This module says that
deleting by pattern is a row of visits and nothing else, for every list of replies:
**`exists_goesThrough`**.

All visits but the last have succeeded, and each has named a cursor that is not zero, which is what
the next visit asks with. With the last visit it ends one way or the other. Either that has
succeeded too and names the cursor zero, and then the counts are added up; or the last command of it
was answered with an error, with something that cannot be read, or not at all.

## The step

A page and the count that may belong to it are one or two replies, so the recursion is by one or two
replies at a time. `deleteFrom_cases` is about the visit at the beginning and says all that it can
come to; the row is an induction over it.
-/

namespace Gatehouse.Redis

/-- What was asked for one page, what was replied, and what the replies were read as. -/
structure Visit where
  cursor : Nat
  replies : List Reply
  next : Nat
  keys : List String
  removed : Nat

namespace Visit

/-- The page is asked for, and its keys are deleted if it has any. -/
def commands (pattern : String) (v : Visit) : List Command := visitCommands v.cursor pattern v.keys

/-- The replies are a page and, if it has keys, how many of them existed. -/
inductive Succeeds (v : Visit) : Prop where
  | empty (page : Reply) (hreplies : v.replies = [page])
    (hpage : understood Reply.page? page = .ok (v.next, v.keys)) (hkeys : v.keys = [])
    (hremoved : v.removed = 0)
  | full (page count : Reply) (hreplies : v.replies = [page, count])
    (hpage : understood Reply.page? page = .ok (v.next, v.keys)) (hkeys : v.keys ≠ [])
    (hcount : understood (Reply.word? 64) count = .ok v.removed)

/-- The reply to the last command is an error, or cannot be read, or is missing. -/
inductive FailsWith (v : Visit) : ExchangeError → Prop where
  | pageMissing (hreplies : v.replies = []) (hkeys : v.keys = []) : FailsWith v .closed
  | page (page : Reply) (e : ExchangeError) (hreplies : v.replies = [page])
    (hpage : understood Reply.page? page = .error e) (hkeys : v.keys = []) : FailsWith v e
  | countMissing (page : Reply) (hreplies : v.replies = [page])
    (hpage : understood Reply.page? page = .ok (v.next, v.keys)) (hkeys : v.keys ≠ []) :
    FailsWith v .closed
  | count (page count : Reply) (e : ExchangeError) (hreplies : v.replies = [page, count])
    (hpage : understood Reply.page? page = .ok (v.next, v.keys)) (hkeys : v.keys ≠ [])
    (hcount : understood (Reply.word? 64) count = .error e) : FailsWith v e

theorem Succeeds.replies_pos {v : Visit} (h : v.Succeeds) : 0 < v.replies.length := by
  rcases h with ⟨page, hreplies, -⟩ | ⟨page, count, hreplies, -⟩ <;> rw [hreplies] <;>
    exact Nat.succ_pos _

theorem Succeeds.length_commands {v : Visit} (h : v.Succeeds) (pattern : String) :
    (v.commands pattern).length = v.replies.length := by
  rw [Visit.commands, visitCommands]
  rcases h with ⟨page, hreplies, -, hkeys, -⟩ | ⟨page, count, hreplies, -, hkeys, -⟩
  · rw [hreplies, if_pos hkeys]
    rfl
  · rw [hreplies, if_neg hkeys]
    rfl

/-- The keys that a visit deletes are those of its page, whether or not it succeeds. -/
theorem exists_page {v : Visit} (h : v.Succeeds ∨ ∃ e, v.FailsWith e) (hkeys : v.keys ≠ []) :
    ∃ page ∈ v.replies, understood Reply.page? page = .ok (v.next, v.keys) := by
  rcases h with (⟨page, hreplies, hpage⟩ | ⟨page, count, hreplies, hpage⟩) | ⟨e, h⟩
  · exact ⟨page, by simp [hreplies], hpage⟩
  · exact ⟨page, by simp [hreplies], hpage⟩
  rcases h with ⟨-, hnil⟩ | ⟨-, -, -, -, hnil⟩ | ⟨page, hreplies, hpage⟩ |
    ⟨page, count, e, hreplies, hpage⟩
  · exact absurd hnil hkeys
  · exact absurd hnil hkeys
  · exact ⟨page, by simp [hreplies], hpage⟩
  · exact ⟨page, by simp [hreplies], hpage⟩

end Visit

/-! ## One visit -/

section Step

variable {pattern : String} {cursor deleted next : Nat} {page count : Reply} {keys : List String}
  {e : ExchangeError}

theorem understood_ne_closed {α : Type} {read? : Reply → Option α} {r : Reply} :
    understood read? r ≠ .error .closed := by
  intro h
  rw [understood] at h
  split at h
  · cases h
  · split at h <;> cases h

theorem deleteFrom_of_error (h : understood Reply.page? page = .error e) (rest : List Reply) :
    deleteFrom pattern cursor deleted (page :: rest) = ⟨[scan cursor pattern], .error e, rest⟩ := by
  cases rest <;> simp only [deleteFrom, h]

theorem deleteFrom_of_empty (h : understood Reply.page? page = .ok (next, []))
    (rest : List Reply) :
    deleteFrom pattern cursor deleted (page :: rest) =
      if next = 0 then ⟨[scan cursor pattern], .ok deleted, rest⟩
      else (deleteFrom pattern next deleted rest).after [scan cursor pattern] := by
  cases rest <;> simp only [deleteFrom, h]

theorem deleteFrom_of_countMissing (h : understood Reply.page? page = .ok (next, keys))
    (hkeys : keys ≠ []) :
    deleteFrom pattern cursor deleted [page] =
      ⟨[scan cursor pattern, del keys], .error .closed, []⟩ := by
  obtain ⟨key, more, rfl⟩ := List.exists_cons_of_ne_nil hkeys
  simp only [deleteFrom, h]

theorem deleteFrom_of_full (h : understood Reply.page? page = .ok (next, keys)) (hkeys : keys ≠ [])
    (rest : List Reply) :
    deleteFrom pattern cursor deleted (page :: count :: rest) =
      match understood (Reply.word? 64) count with
      | .error e => ⟨[scan cursor pattern, del keys], .error e, rest⟩
      | .ok n =>
        if next = 0 then ⟨[scan cursor pattern, del keys], .ok (wrapped (deleted + n)), rest⟩
        else
          (deleteFrom pattern next (wrapped (deleted + n)) rest).after
            [scan cursor pattern, del keys] := by
  obtain ⟨key, more, rfl⟩ := List.exists_cons_of_ne_nil hkeys
  rcases hcount : understood (Reply.word? 64) count with e | n <;>
    simp only [deleteFrom, h, hcount]

end Step

theorem wrapped_wrapped_add (n m : Nat) : wrapped (wrapped n + m) = wrapped (n + m) :=
  Nat.mod_add_mod n (wordSize 64) m

/-- **The first visit** succeeds, and then it is the last one or goes on from the cursor that was
named; or it fails, and then nothing more is sent. -/
theorem deleteFrom_cases (pattern : String) (cursor deleted : Nat) (replies : List Reply) :
    (∃ (v : Visit) (rest : List Reply), v.cursor = cursor ∧ v.Succeeds ∧
      replies = v.replies ++ rest ∧
      deleteFrom pattern cursor (wrapped deleted) replies =
        if v.next = 0 then ⟨v.commands pattern, .ok (wrapped (deleted + v.removed)), rest⟩
        else
          (deleteFrom pattern v.next (wrapped (deleted + v.removed)) rest).after
            (v.commands pattern)) ∨
    ∃ (v : Visit) (e : ExchangeError) (rest : List Reply), v.cursor = cursor ∧ v.FailsWith e ∧
      replies = v.replies ++ rest ∧ (e = .closed → rest = []) ∧
      deleteFrom pattern cursor (wrapped deleted) replies =
        ⟨v.commands pattern, .error e, rest⟩ := by
  rcases replies with _ | ⟨page, rest⟩
  · refine .inr ⟨⟨cursor, [], 0, [], 0⟩, .closed, [], rfl, .pageMissing rfl rfl, rfl, ?_, rfl⟩
    exact fun _ ↦ rfl
  rcases hpage : understood Reply.page? page with e | ⟨next, keys⟩
  · refine .inr ⟨⟨cursor, [page], 0, [], 0⟩, e, rest, rfl, .page page e rfl hpage rfl, rfl, ?_,
      deleteFrom_of_error hpage rest⟩
    rintro rfl
    exact absurd hpage understood_ne_closed
  by_cases hkeys : keys = []
  · subst hkeys
    refine .inl ⟨⟨cursor, [page], next, [], 0⟩, rest, rfl, .empty page rfl hpage rfl rfl, rfl, ?_⟩
    exact deleteFrom_of_empty hpage rest
  have hcommands : visitCommands cursor pattern keys = [scan cursor pattern, del keys] := by
    rw [visitCommands, if_neg hkeys]
  rcases rest with _ | ⟨count, rest⟩
  · refine .inr ⟨⟨cursor, [page], next, keys, 0⟩, .closed, [], rfl,
      .countMissing page rfl hpage hkeys, rfl, fun _ ↦ rfl, ?_⟩
    rw [deleteFrom_of_countMissing hpage hkeys, Visit.commands, hcommands]
  rcases hcount : understood (Reply.word? 64) count with e | removed
  · refine .inr ⟨⟨cursor, [page, count], next, keys, 0⟩, e, rest, rfl,
      .count page count e rfl hpage hkeys hcount, rfl, ?_, ?_⟩
    · rintro rfl
      exact absurd hcount understood_ne_closed
    · rw [deleteFrom_of_full hpage hkeys, hcount, Visit.commands, hcommands]
  · refine .inl ⟨⟨cursor, [page, count], next, keys, removed⟩, rest, rfl,
      .full page count rfl hpage hkeys hcount, rfl, ?_⟩
    rw [deleteFrom_of_full hpage hkeys, hcount, Visit.commands, hcommands]
    simp only [wrapped_wrapped_add]

/-! ## All visits -/

/-- Deleting from a cursor on, where `deleted` have been counted before, is these visits. -/
structure GoesThrough (pattern : String) (cursor deleted : Nat) (replies : List Reply)
    (x : Exchange Nat) (done : List Visit) (last : Visit) : Prop where
  /-- The first asks with the cursor given, each other one with what the one before has named. -/
  asked : (done ++ [last]).map Visit.cursor = cursor :: done.map Visit.next
  /-- All but the last have succeeded, and none of these has named zero. -/
  wentOn : ∀ v ∈ done, v.Succeeds ∧ v.next ≠ 0
  /-- What is sent is what they send. -/
  sent : x.sent = (done ++ [last]).flatMap (Visit.commands pattern)
  /-- They use up the replies in their order. -/
  heard : replies = (done ++ [last]).flatMap Visit.replies ++ x.unread
  /-- The last has succeeded as well and names zero, or it has failed. If a reply is missing, none
  is left over. -/
  ended : (last.Succeeds ∧ last.next = 0 ∧
      x.outcome = .ok (wrapped (deleted + ((done ++ [last]).map Visit.removed).sum))) ∨
    ∃ e, last.FailsWith e ∧ x.outcome = .error e ∧ (e = .closed → x.unread = [])

namespace GoesThrough

variable {pattern : String} {cursor deleted n : Nat} {replies rest : List Reply} {x : Exchange Nat}
  {done : List Visit} {v last : Visit}

/-- A visit that names a cursor goes before what is made of that cursor. -/
theorem cons (hv : v.Succeeds) (hnext : v.next ≠ 0)
    (h : GoesThrough pattern v.next (deleted + v.removed) rest x done last) :
    GoesThrough pattern v.cursor deleted (v.replies ++ rest) (x.after (v.commands pattern))
      (v :: done) last where
  asked := by rw [List.cons_append, List.map_cons, h.asked, List.map_cons]
  wentOn u hu := by
    rcases List.mem_cons.mp hu with rfl | hmem
    · exact ⟨hv, hnext⟩
    · exact h.wentOn u hmem
  sent := by rw [List.cons_append, List.flatMap_cons, ← h.sent, Exchange.after]
  heard := by
    rw [List.cons_append, List.flatMap_cons, List.append_assoc]
    exact congrArg (v.replies ++ ·) h.heard
  ended := by
    rcases h.ended with ⟨hlast, hzero, houtcome⟩ | hfailed
    · refine .inl ⟨hlast, hzero, ?_⟩
      rw [List.cons_append, List.map_cons, List.sum_cons, ← Nat.add_assoc]
      exact houtcome
    · exact .inr hfailed

/-- A visit that names no cursor stands alone. -/
theorem of_last (hv : v.Succeeds) (hnext : v.next = 0) :
    GoesThrough pattern v.cursor deleted (v.replies ++ rest)
      ⟨v.commands pattern, .ok (wrapped (deleted + v.removed)), rest⟩ [] v where
  asked := rfl
  wentOn _ hu := nomatch hu
  sent := by rw [List.nil_append, List.flatMap_singleton]
  heard := by rw [List.nil_append, List.flatMap_singleton]
  ended := .inl ⟨hv, hnext, rfl⟩

theorem of_failed {e : ExchangeError} (hv : v.FailsWith e) (hclosed : e = .closed → rest = []) :
    GoesThrough pattern v.cursor deleted (v.replies ++ rest)
      ⟨v.commands pattern, .error e, rest⟩ [] v where
  asked := rfl
  wentOn _ hu := nomatch hu
  sent := by rw [List.nil_append, List.flatMap_singleton]
  heard := by rw [List.nil_append, List.flatMap_singleton]
  ended := .inr ⟨e, hv, rfl, hclosed⟩

theorem succeeds_or_fails (h : GoesThrough pattern cursor deleted replies x done last) {v : Visit}
    (hv : v ∈ done ++ [last]) : v.Succeeds ∨ ∃ e, v.FailsWith e := by
  rcases List.mem_append.mp hv with hmem | hmem
  · exact .inl (h.wentOn v hmem).1
  · obtain rfl := List.mem_singleton.mp hmem
    rcases h.ended with ⟨hlast, -⟩ | ⟨e, hfails, -⟩
    · exact .inl hlast
    · exact .inr ⟨e, hfails⟩

/-- In a call that succeeds, every visit does, and the last one names zero. -/
theorem of_ok (h : GoesThrough pattern cursor deleted replies x done last)
    (hok : x.outcome = .ok n) :
    (∀ v ∈ done ++ [last], v.Succeeds) ∧ last.next = 0 ∧
      n = wrapped (deleted + ((done ++ [last]).map Visit.removed).sum) := by
  rcases h.ended with ⟨hlast, hzero, houtcome⟩ | ⟨e, -, houtcome, -⟩
  · refine ⟨fun v hv ↦ ?_, hzero, Except.ok.inj (hok.symm.trans houtcome)⟩
    rcases List.mem_append.mp hv with hmem | hmem
    · exact (h.wentOn v hmem).1
    · obtain rfl := List.mem_singleton.mp hmem
      exact hlast
  · cases hok.symm.trans houtcome

end GoesThrough

/-- Deleting from a cursor on is a row of visits, whatever is replied. -/
theorem exists_goesThrough (pattern : String) (cursor deleted : Nat) (replies : List Reply) :
    ∃ done last, GoesThrough pattern cursor deleted replies
      (deleteFrom pattern cursor (wrapped deleted) replies) done last := by
  induction hlength : replies.length using Nat.strongRecOn generalizing cursor deleted replies with
  | ind length ih =>
    rcases deleteFrom_cases pattern cursor deleted replies with
      ⟨v, rest, rfl, hv, rfl, hstep⟩ | ⟨v, e, rest, rfl, hv, rfl, hclosed, hstep⟩
    · by_cases hnext : v.next = 0
      · rw [hstep, if_pos hnext]
        exact ⟨[], v, .of_last hv hnext⟩
      · -- a visit that succeeds has used up a reply
        have hshorter : rest.length < length := by
          have hpos := hv.replies_pos
          rw [List.length_append] at hlength
          omega
        obtain ⟨done, last, hrest⟩ := ih _ hshorter v.next (deleted + v.removed) rest rfl
        rw [hstep, if_neg hnext]
        exact ⟨v :: done, last, hrest.cons hv hnext⟩
    · rw [hstep]
      exact ⟨[], v, .of_failed hv hclosed⟩

end Gatehouse.Redis
