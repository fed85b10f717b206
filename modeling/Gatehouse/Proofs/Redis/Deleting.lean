import Mathlib.Data.Set.List
import Mathlib.Logic.Function.Iterate
import Gatehouse.Proofs.Redis.Conversation
import Gatehouse.Proofs.Store.Live

/-!
# Deleting page by page

Deleting by pattern is a chain of visits. A visit asks for the page of a cursor and deletes the
keys on it; if the server names another cursor than zero, the chain goes on from there. Between two
visits no key is added, so the chain is a cycle of the server: it comes to its end, and by then
every key that matches has been shown and deleted, **`exists_completes_deleteByPattern`**.

What is counted is what every visit has removed. A key that is shown twice is removed once, so the
count is by how many keys the server has become poorer.
-/

namespace Gatehouse.Redis

variable {σ : Type} {scanner : Scanner σ} {s s' : Server σ}

/-! ## The words of a visit -/

/-- What is sent to see a page and to delete the keys on it. -/
def visitCommands (cursor : Nat) (pattern : String) (keys : List String) : List Command :=
  scan cursor pattern :: if keys = [] then [] else [del keys]

/-- The reply that is a page. -/
def pageReply (next : Nat) (keys : List Bytes) : Reply :=
  .array [.bulk (Json.integerOctets next), .array (keys.map .bulk)]

/-- The page and, if keys had to be deleted, how many there were. -/
def visitReplies (next : Nat) (keys : List String) (removed : Nat) : List Reply :=
  pageReply next (keys.map utf8) :: if keys = [] then [] else [.int removed]

theorem wrapped_add (n m : Nat) : wrapped (wrapped n + wrapped m) = wrapped (n + m) :=
  (Nat.add_mod n m (wordSize 64)).symm

/-- What deleting makes of a page: it is done, or it goes on from the next cursor. -/
theorem deleteFrom_visitReplies {pattern : String} {cursor deleted next removed : Nat}
    {keys : List String} (hnext : next < wordSize 64) (hremoved : keys = [] → removed = 0)
    (rest : List Reply) :
    deleteFrom pattern cursor (wrapped deleted) (visitReplies next keys removed ++ rest) =
      if next = 0 then
        ⟨visitCommands cursor pattern keys, .ok (wrapped (deleted + removed)), rest⟩
      else
        (deleteFrom pattern next (wrapped (deleted + removed)) rest).after
          (visitCommands cursor pattern keys) := by
  have hpage := understood_page? hnext keys
  rw [visitReplies, visitCommands, pageReply]
  cases keys with
  | nil =>
    rw [hremoved rfl]
    cases rest with
    | nil => simp only [if_pos, List.append_nil, deleteFrom, hpage, Nat.add_zero]
    | cons r rest =>
      simp only [if_pos, List.cons_append, List.nil_append, deleteFrom, hpage, Nat.add_zero]
  | cons key keys =>
    rw [if_neg (List.cons_ne_nil key keys), if_neg (List.cons_ne_nil key keys)]
    simp only [List.cons_append, List.nil_append, deleteFrom, hpage, understood_word?, wrapped_add]

namespace Server

/-- The server when it has handed out the page for a cursor. -/
def turned (s : Server σ) (scanner : Scanner σ) (cursor : Nat) (pattern : String) : Server σ :=
  { s with state := (s.page scanner cursor (utf8 pattern)).state }

/-- See a page and delete the keys on it. -/
def visit (scanner : Scanner σ) (pattern : String) (x : Server σ × Nat) : Server σ × Nat :=
  ((x.1.turned scanner x.2 pattern).without (x.1.page scanner x.2 (utf8 pattern)).keys,
    (x.1.page scanner x.2 (utf8 pattern)).next)

/-- How many keys there are less. -/
def lost (s s' : Server σ) : Nat := s.items.size - s'.items.size

section Visit

variable {x : Server σ × Nat} {pattern : String} {keys : List String}

theorem without_nil (s : Server σ) : s.without [] = s := by
  have hpairs : s.items.pairs.filter (fun e ↦ e.1 ∉ ([] : List Bytes)) = s.items.pairs := by
    simp
  simp only [without, Table.filter, hpairs]

theorem serve_scan (hq : s.queue = none) (cursor : Nat) (pattern : String) (cs : List Command) :
    s.serve scanner (scan cursor pattern :: cs) =
      (pageReply (s.page scanner cursor (utf8 pattern)).next
          (s.page scanner cursor (utf8 pattern)).keys ::
          ((s.turned scanner cursor pattern).serve scanner cs).1,
        ((s.turned scanner cursor pattern).serve scanner cs).2) :=
  serve_cons_order hq (parse?_scan cursor pattern) rfl cs

theorem serve_del (hq : s.queue = none) (hnil : keys ≠ []) :
    s.serve scanner [del keys] =
      ([.int (s.items.size - (s.without (keys.map utf8)).items.size : Nat)],
        s.without (keys.map utf8)) :=
  serve_cons_order hq (parse?_del hnil) rfl []

variable (hq : x.1.queue = none)
  (hkeys : (x.1.page scanner x.2 (utf8 pattern)).keys = keys.map utf8)

include hq hkeys

theorem serve_visitCommands :
    x.1.serve scanner (visitCommands x.2 pattern keys) =
      (visitReplies (visit scanner pattern x).2 keys (x.1.lost (visit scanner pattern x).1),
        (visit scanner pattern x).1) := by
  rw [visitCommands, visitReplies, serve_scan hq, visit, hkeys]
  by_cases hnil : keys = []
  · rw [if_pos hnil, if_pos hnil, hnil, List.map_nil, without_nil]
    rfl
  · have hq' : (x.1.turned scanner x.2 pattern).queue = none := hq
    rw [if_neg hnil, if_neg hnil, serve_del hq' hnil]
    rfl

/-- Deleting from a cursor on gets to the replies of the first visit. -/
theorem exists_talk_eq_visitReplies (deleted : Nat) :
    ∃ n, x.1.talk scanner (deleteFrom pattern x.2 deleted) n =
      visitReplies (visit scanner pattern x).2 keys (x.1.lost (visit scanner pattern x).1) := by
  have hvisit := congrArg Prod.fst (serve_visitCommands hq hkeys)
  have hfirst : x.1.talk scanner (deleteFrom pattern x.2 deleted) 1 =
      [pageReply (visit scanner pattern x).2 (keys.map utf8)] := by
    rw [talk, talk, deleteFrom, serve_scan hq, hkeys]
    rfl
  by_cases hnil : keys = []
  · refine ⟨1, hfirst.trans ?_⟩
    rw [visitReplies, if_pos hnil]
  · refine ⟨2, ?_⟩
    have hpage := understood_page? (scanner.next_lt x.1.state x.1.keys x.2 (utf8 pattern)) keys
    have hsent : (deleteFrom pattern x.2 deleted
        [pageReply (visit scanner pattern x).2 (keys.map utf8)]).sent =
          visitCommands x.2 pattern keys := by
      obtain ⟨key, more, rfl⟩ := List.exists_cons_of_ne_nil hnil
      rw [visitCommands, if_neg hnil]
      simp only [deleteFrom, pageReply, visit, page, hpage]
    rw [talk, hfirst, hsent, hvisit]

omit hq hkeys in
theorem visit_lt : (visit scanner pattern x).2 < wordSize 64 := scanner.next_lt ..

omit hq in
theorem lost_visit_of_nil (hnil : keys = []) : x.1.lost (visit scanner pattern x).1 = 0 := by
  rw [visit, hkeys, hnil, List.map_nil, without_nil]
  exact Nat.sub_self _

end Visit

end Server

open Server

section Visits

variable {x : Server σ × Nat}

/-- A visit after which the cursor is zero is the last one. -/
theorem completes_of_visit_eq_zero {pattern : String} (hq : x.1.queue = none)
    (htexts : (x.1.page scanner x.2 (utf8 pattern)).keys ∈ Set.range (List.map utf8))
    (hlast : (visit scanner pattern x).2 = 0) (deleted : Nat) :
    Completes scanner x.1 (deleteFrom pattern x.2 (wrapped deleted))
      (.ok (wrapped (deleted + x.1.lost (visit scanner pattern x).1)))
      (visit scanner pattern x).1 := by
  obtain ⟨keys, hkeys⟩ := htexts
  obtain ⟨n, htalk⟩ := exists_talk_eq_visitReplies hq hkeys.symm (wrapped deleted)
  refine .of_talk htalk (serve_visitCommands hq hkeys.symm) ?_
  rw [← List.append_nil (visitReplies _ _ _), deleteFrom_visitReplies visit_lt
    (lost_visit_of_nil hkeys.symm), if_pos hlast]

/-- After any other visit it goes on from the next cursor. -/
theorem completes_of_visit {pattern : String} (hq : x.1.queue = none)
    (htexts : (x.1.page scanner x.2 (utf8 pattern)).keys ∈ Set.range (List.map utf8))
    (hmore : (visit scanner pattern x).2 ≠ 0) {deleted : Nat} {o : Except ExchangeError Nat}
    (h : Completes scanner (visit scanner pattern x).1
      (deleteFrom pattern (visit scanner pattern x).2
        (wrapped (deleted + x.1.lost (visit scanner pattern x).1))) o s') :
    Completes scanner x.1 (deleteFrom pattern x.2 (wrapped deleted)) o s' := by
  obtain ⟨keys, hkeys⟩ := htexts
  obtain ⟨n, htalk⟩ := exists_talk_eq_visitReplies hq hkeys.symm (wrapped deleted)
  refine .after htalk (serve_visitCommands hq hkeys.symm) (fun rest ↦ ?_) h
  rw [deleteFrom_visitReplies visit_lt (lost_visit_of_nil hkeys.symm), if_neg hmore]

namespace Server

variable {pattern : String}

theorem find?_visit (x : Server σ × Nat) (k : Bytes) :
    (visit scanner pattern x).1.items.find? k =
      if k ∈ (x.1.page scanner x.2 (utf8 pattern)).keys then none else x.1.items.find? k := by
  have hwithout : (visit scanner pattern x).1.items.find? k =
      (x.1.items.find? k).filter fun _ ↦ k ∉ (x.1.page scanner x.2 (utf8 pattern)).keys :=
    Table.find?_filter ..
  rw [hwithout]
  split
  · next hk => cases x.1.items.find? k <;> simp [hk]
  · next hk => cases x.1.items.find? k <;> simp [hk]

theorem size_visit_le (x : Server σ × Nat) :
    (visit scanner pattern x).1.items.size ≤ x.1.items.size := List.length_filter_le ..

theorem keys_visit_subset (x : Server σ × Nat) : (visit scanner pattern x).1.keys ⊆ x.1.keys :=
  List.map_subset _ (List.filter_sublist.subset)

theorem size_iterate_visit_le (n : Nat) (x : Server σ × Nat) :
    ((visit scanner pattern)^[n] x).1.items.size ≤ x.1.items.size := by
  induction n generalizing x with
  | zero => exact Nat.le_refl _
  | succ n ih => exact (ih _).trans (size_visit_le x)

/-- What is lost on the way adds up. -/
theorem lost_visit_add (n : Nat) (x : Server σ × Nat) :
    x.1.lost (visit scanner pattern x).1 +
        (visit scanner pattern x).1.lost ((visit scanner pattern)^[n] (visit scanner pattern x)).1 =
      x.1.lost ((visit scanner pattern)^[n] (visit scanner pattern x)).1 := by
  have hone : (visit scanner pattern x).1.items.size ≤ x.1.items.size := size_visit_le x
  have hall : ((visit scanner pattern)^[n] (visit scanner pattern x)).1.items.size ≤
      (visit scanner pattern x).1.items.size := size_iterate_visit_le n _
  simp only [lost]
  omega

end Server

/-- Deleting from a cursor on is visiting page after page until the cursor is zero again. What is
counted is by how many keys the server has become poorer. -/
theorem completes_deleteFrom {pattern : String} {n : Nat} (hq : x.1.queue = none)
    (htexts : ∀ m ≤ n, (((visit scanner pattern)^[m] x).1.page scanner
      ((visit scanner pattern)^[m] x).2 (utf8 pattern)).keys ∈ Set.range (List.map utf8))
    (hlast : ((visit scanner pattern)^[n + 1] x).2 = 0)
    (hmore : ∀ m < n, ((visit scanner pattern)^[m + 1] x).2 ≠ 0) (deleted : Nat) :
    Completes scanner x.1 (deleteFrom pattern x.2 (wrapped deleted))
      (.ok (wrapped (deleted + x.1.lost ((visit scanner pattern)^[n + 1] x).1)))
      ((visit scanner pattern)^[n + 1] x).1 := by
  have hfirst := htexts 0 (Nat.zero_le n)
  induction n generalizing x deleted with
  | zero => exact completes_of_visit_eq_zero hq hfirst hlast deleted
  | succ n ih =>
    have hrest := ih (x := visit scanner pattern x) hq
      (fun m hm ↦ htexts (m + 1) (Nat.succ_le_succ hm)) hlast
      (fun m hm ↦ hmore (m + 1) (Nat.succ_lt_succ hm))
      (deleted + x.1.lost (visit scanner pattern x).1)
      (htexts 1 (Nat.succ_le_succ (Nat.zero_le n)))
    rw [Nat.add_assoc, lost_visit_add] at hrest
    exact completes_of_visit hq hfirst (hmore 0 (Nat.succ_pos n)) hrest

end Visits

/-! ## The cycle of a server -/

namespace Server

variable {pattern : String}

/-- Visits that begin with the cursor zero are a cycle. -/
def cycle (s : Server σ) (scanner : Scanner σ) (pattern : String) :
    Cycle scanner.page (utf8 pattern) where
  state n := ((visit scanner pattern)^[n] (s, 0)).1.state
  keys n := ((visit scanner pattern)^[n] (s, 0)).1.keys
  cursor n := ((visit scanner pattern)^[n] (s, 0)).2
  begins := rfl
  shrinks n := by
    rw [Function.iterate_succ_apply']
    exact keys_visit_subset _
  goesOn n := by
    rw [Function.iterate_succ_apply']
    rfl
  remembers n := by
    rw [Function.iterate_succ_apply']
    rfl

theorem now_iterate_visit (n : Nat) (x : Server σ × Nat) :
    ((visit scanner pattern)^[n] x).1.now = x.1.now := by
  induction n generalizing x with
  | zero => rfl
  | succ n ih => exact ih _

theorem queue_iterate_visit (n : Nat) (x : Server σ × Nat) :
    ((visit scanner pattern)^[n] x).1.queue = x.1.queue := by
  induction n generalizing x with
  | zero => rfl
  | succ n ih => exact ih _

theorem find?_iterate_succ (n : Nat) (k : Bytes) :
    ((visit scanner pattern)^[n + 1] (s, 0)).1.items.find? k =
      if k ∈ (s.cycle scanner pattern).shown n then none
      else ((visit scanner pattern)^[n] (s, 0)).1.items.find? k := by
  rw [Function.iterate_succ_apply', find?_visit]
  rfl

theorem find?_iterate_of_not_shown {n : Nat} {k : Bytes}
    (h : ∀ m < n, k ∉ (s.cycle scanner pattern).shown m) :
    ((visit scanner pattern)^[n] (s, 0)).1.items.find? k = s.items.find? k := by
  induction n with
  | zero => rfl
  | succ n ih =>
    rw [find?_iterate_succ, if_neg (h n (Nat.lt_succ_self n))]
    exact ih fun m hm ↦ h m (Nat.lt_succ_of_lt hm)

theorem find?_iterate_of_shown {m n : Nat} {k : Bytes} (hmn : m < n)
    (h : k ∈ (s.cycle scanner pattern).shown m) :
    ((visit scanner pattern)^[n] (s, 0)).1.items.find? k = none := by
  induction n, hmn using Nat.le_induction with
  | base => rw [find?_iterate_succ, if_pos h]
  | succ n hmn ih => rw [find?_iterate_succ, ih, ite_self]

/-- When a cycle returns to zero, the keys that match have been deleted, and no others. -/
theorem find?_of_returnsAt {n : Nat} (h : (s.cycle scanner pattern).ReturnsAt n) (k : Bytes) :
    ((visit scanner pattern)^[n + 1] (s, 0)).1.items.find? k =
      (s.items.find? k).filter fun _ ↦ !scanner.isMatch (utf8 pattern) k := by
  by_cases hmatch : scanner.isMatch (utf8 pattern) k = true
  · have hgone : ((visit scanner pattern)^[n + 1] (s, 0)).1.items.find? k = none := by
      by_contra hsome
      -- a key that were left would have been there all the time, and so been shown
      have hkey : k ∈ (s.cycle scanner pattern).keys n := by
        refine Table.mem_keys_iff.mpr fun hnone ↦ hsome ?_
        rw [find?_iterate_succ, hnone, ite_self]
      obtain ⟨m, hm, hshown⟩ := scanner.complete _ h hkey hmatch
      exact hsome (find?_iterate_of_shown (Nat.lt_succ_of_le hm) hshown)
    rw [hgone]
    cases s.items.find? k <;> simp [Option.filter, hmatch]
  · rw [find?_iterate_of_not_shown fun m hm hshown ↦
      hmatch (scanner.sound _ h (Nat.le_of_lt_succ hm) hshown).2]
    cases s.items.find? k <;> simp [Option.filter, hmatch]

end Server

variable (scanner) in
/-- **Deleting by pattern.** Where all keys are texts, the conversation comes to its end, however
the server goes through its keys: those that match are gone, the others are as they were, and the
answer is by how many keys the server has become poorer. -/
theorem exists_completes_deleteByPattern (hq : s.queue = none)
    (htexts : ∀ key ∈ s.keys, key ∈ Set.range utf8) (pattern : String) :
    ∃ s', Completes scanner s (deleteByPattern pattern) (.ok (wrapped (s.lost s'))) s' ∧
      s'.now = s.now ∧ s'.queue = none ∧ ∀ k, s'.items.find? k =
        (s.items.find? k).filter fun _ ↦ !scanner.isMatch (utf8 pattern) k := by
  obtain ⟨n, hreturns⟩ := scanner.returns (s.cycle scanner pattern)
  refine ⟨((visit scanner pattern)^[n + 1] (s, 0)).1, ?_, now_iterate_visit (n + 1) (s, 0),
    (queue_iterate_visit (n + 1) (s, 0)).trans hq, find?_of_returnsAt hreturns⟩
  have hpages : ∀ m ≤ n, (s.cycle scanner pattern).shown m ∈ Set.range (List.map utf8) := by
    intro m hm
    rw [Set.range_list_map]
    exact fun key hkey ↦ htexts key (scanner.sound _ hreturns hm hkey).1
  have hcompletes := completes_deleteFrom (x := (s, 0)) hq hpages hreturns.1 hreturns.2 0
  rwa [Nat.zero_add] at hcompletes

end Gatehouse.Redis
