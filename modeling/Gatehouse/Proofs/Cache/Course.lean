import Gatehouse.Body
import Gatehouse.Proofs.Store.Kept

/-!
# The course of a copy

All that happens to a copy while its body is read is decided by the answers that the body gives to
the questions for a frame. `Capture.course` is what becomes of a copy over a list of answers:
without a store, a journal or a body.

## The invariant

As long as a copy goes on, it holds the data that was answered so far, and that has not grown
beyond the limit. A copy that is given up for its length therefore belongs to a body whose data is
too long, whatever comes after; a copy that reaches the end holds all of the data. This is
`Capture.writesOver_answers`, by induction on the number of questions, with the copy and the frames
that are left varying together.
-/

namespace Gatehouse

open Cache

/-! ## One answer after the other -/

def Frame.isFailure : Frame → Bool
  | failure _ => true
  | _ => false

namespace Cache.Capture

/-- What is written when the copy is finished. -/
def written (c : Capture) : Written := ⟨c.key, c.entry.encode, c.ttl⟩

/-- What has become of a copy: what is left of it, what was written, and how often it was given up
for its length. -/
structure Course where
  copy : Option Capture
  writes : List Written
  skips : Nat

/-- What becomes of a copy when its body gives one answer. -/
def advance : Option Capture → Option Frame → Course
  | some c, some (.data data) =>
    if c.limit < c.copied.length + data.length then ⟨none, [], 1⟩
    else ⟨some { c with copied := c.copied ++ data }, [], 0⟩
  | some c, some (.trailers _) => ⟨some c, [], 0⟩
  | some c, none => ⟨none, [c.written], 0⟩
  | _, _ => ⟨none, [], 0⟩

/-- What becomes of a copy over the answers of its body. -/
def course (copy : Option Capture) : List (Option Frame) → Course
  | [] => ⟨copy, [], 0⟩
  | answer :: answers =>
    let first := advance copy answer
    let rest := course first.copy answers
    ⟨rest.copy, first.writes ++ rest.writes, first.skips + rest.skips⟩

/-- What is written when a body is dropped whose end is known or not. -/
def parting : Option Capture → Bool → List Written
  | some c, true => [c.written]
  | _, _ => []

/-- All that is written of a copy whose body gives the answers and is dropped then. -/
def writesOver (copy : Option Capture) (answers : List (Option Frame)) (ended : Bool) :
    List Written :=
  (course copy answers).writes ++ parting (course copy answers).copy ended

theorem course_none (answers : List (Option Frame)) : course none answers = ⟨none, [], 0⟩ := by
  induction answers with
  | nil => rfl
  | cons answer answers ih =>
    have hfirst : advance none answer = ⟨none, [], 0⟩ := rfl
    rw [course, hfirst, ih]
    rfl

theorem writesOver_cons_of_some {copy : Option Capture} {answer : Option Frame} {c : Capture}
    (hfirst : advance copy answer = ⟨some c, [], 0⟩) (answers : List (Option Frame))
    (ended : Bool) :
    writesOver copy (answer :: answers) ended = writesOver (some c) answers ended := by
  rw [writesOver, course, hfirst]
  rfl

theorem writesOver_cons_of_none {copy : Option Capture} {answer : Option Frame}
    {writes : List Written} {skips : Nat} (hfirst : advance copy answer = ⟨none, writes, skips⟩)
    (answers : List (Option Frame)) (ended : Bool) :
    writesOver copy (answer :: answers) ended = writes := by
  rw [writesOver, course, hfirst, course_none]
  simp only [parting, List.append_nil]

theorem course_append (copy : Option Capture) (answers answers' : List (Option Frame)) :
    course copy (answers ++ answers') =
      let first := course copy answers
      let rest := course first.copy answers'
      ⟨rest.copy, first.writes ++ rest.writes, first.skips + rest.skips⟩ := by
  induction answers generalizing copy with
  | nil => simp [course]
  | cons answer answers ih => simp [course, ih, Nat.add_assoc]

/-- At one answer a copy either goes on, or it comes to its end and is written or given up at most
once. -/
theorem advance_goes_on_or_ends (copy : Option Capture) (answer : Option Frame) :
    (∃ c, advance copy answer = ⟨some c, [], 0⟩) ∨
      ∃ writes skips, advance copy answer = ⟨none, writes, skips⟩ ∧ writes.length + skips ≤ 1 := by
  rcases copy with _ | c
  · exact .inr ⟨[], 0, rfl, Nat.zero_le 1⟩
  · rcases answer with _ | data | h | reason
    · exact .inr ⟨[c.written], 0, rfl, Nat.le_refl 1⟩
    · by_cases hlong : c.limit < c.copied.length + data.length
      · exact .inr ⟨[], 1, by rw [advance, if_pos hlong], Nat.le_refl 1⟩
      · exact .inl ⟨{ c with copied := c.copied ++ data }, by rw [advance, if_neg hlong]⟩
    · exact .inl ⟨c, rfl⟩
    · exact .inr ⟨[], 0, rfl, Nat.zero_le 1⟩

/-- A copy is written or given up, and only once. -/
theorem length_writesOver_add_skips_le (copy : Option Capture) (answers : List (Option Frame))
    (ended : Bool) :
    (writesOver copy answers ended).length + (course copy answers).skips ≤ 1 := by
  induction answers generalizing copy with
  | nil =>
    rcases copy with _ | c
    · exact Nat.zero_le 1
    · cases ended with
      | false => exact Nat.zero_le 1
      | true => exact Nat.le_refl 1
  | cons answer answers ih =>
    rcases advance_goes_on_or_ends copy answer with ⟨c, hfirst⟩ | ⟨writes, skips, hfirst, hle⟩
    · rw [writesOver_cons_of_some hfirst, course, hfirst, Nat.zero_add]
      exact ih (some c)
    · rw [writesOver_cons_of_none hfirst, course, hfirst, course_none]
      exact hle

end Cache.Capture

/-! ## The answers of a body -/

namespace Body

/-- The answers to the first `n` questions for a frame of a body that hands out the given
frames. -/
def answers : Nat → List Frame → List (Option Frame)
  | 0, _ => []
  | n + 1, frames => frames.head? :: answers n frames.tail

theorem answers_nil (n : Nat) : answers n [] = List.replicate n none := by
  induction n with
  | zero => rfl
  | succ n ih => rw [answers, List.head?_nil, List.tail_nil, ih, List.replicate_succ]

theorem answers_add (m n : Nat) (frames : List Frame) :
    answers (m + n) frames = answers m frames ++ answers n (frames.drop m) := by
  induction m generalizing frames with
  | zero => simp [answers]
  | succ m ih =>
    rw [Nat.succ_add, answers, ih, answers, List.cons_append, ← List.drop_one, List.drop_drop,
      Nat.add_comm 1 m]

/-- Nothing failed, and the end was told or is known. -/
def Whole (answers : List (Option Frame)) (ended : Bool) : Prop :=
  (∀ a ∈ answers, a.any Frame.isFailure = false) ∧ (none ∈ answers ∨ ended = true)

instance (answers : List (Option Frame)) (ended : Bool) : Decidable (Whole answers ended) :=
  inferInstanceAs (Decidable (_ ∧ _))

theorem whole_cons_some {f : Frame} (hf : f.isFailure = false) {answers : List (Option Frame)}
    {ended : Bool} : Whole (some f :: answers) ended ↔ Whole answers ended := by
  simp [Whole, hf]

theorem not_whole_cons_failure (reason : String) (answers : List (Option Frame)) (ended : Bool) :
    ¬ Whole (some (.failure reason) :: answers) ended := fun hwhole ↦ by
  simpa [Frame.isFailure] using hwhole.1 _ List.mem_cons_self

theorem whole_replicate_none (n : Nat) (ended : Bool) :
    Whole (List.replicate (n + 1) none) ended := by
  simp [Whole]

end Body

/-! ## What a course writes -/

namespace Cache.Capture

/-- A copy is written if its body was answered whole and all of the data fits, and then all of the
data is written. The data that was answered is in the copy, and it fits. -/
theorem writesOver_answers {c : Capture} {frames : List Frame} {n : Nat} {ended : Bool}
    (hfits : c.copied.length ≤ c.limit) (hended : ended = true → frames.drop n = []) :
    writesOver (some c) (Body.answers n frames) ended
      = if c.copied.length + (frames.flatMap Frame.octets).length ≤ c.limit ∧
            Body.Whole (Body.answers n frames) ended then
          [written { c with copied := c.copied ++ frames.flatMap Frame.octets }]
        else [] := by
  induction n generalizing c frames with
  | zero =>
    cases ended with
    | false => simp [Body.answers, Body.Whole, writesOver, course, parting]
    | true =>
      -- a body that has ended has no data left, so the copy is complete
      obtain rfl : frames = [] := by simpa using hended rfl
      simp [Body.answers, Body.Whole, writesOver, course, parting, hfits]
  | succ n ih =>
    rcases frames with _ | ⟨data | h | reason, frames⟩
    · have hfirst : advance (some c) none = ⟨none, [c.written], 0⟩ := rfl
      rw [Body.answers_nil, if_pos ⟨by simpa using hfits, Body.whole_replicate_none n ended⟩,
        List.replicate_succ, writesOver_cons_of_none hfirst]
      simp
    · have hsound : (Frame.data data).isFailure = false := rfl
      simp only [Body.answers, List.head?_cons, List.tail_cons, List.flatMap_cons, Frame.octets,
        List.length_append, Body.whole_cons_some hsound]
      by_cases hlong : c.limit < c.copied.length + data.length
      · have hfirst : advance (some c) (some (.data data)) = ⟨none, [], 1⟩ := by
          rw [advance, if_pos hlong]
        -- the copy is given up, and all of the data is longer still
        rw [writesOver_cons_of_none hfirst, if_neg fun hstored ↦ ?_]
        have hlength := hstored.1
        omega
      · have hfirst : advance (some c) (some (.data data))
            = ⟨some { c with copied := c.copied ++ data }, [], 0⟩ := by
          rw [advance, if_neg hlong]
        have hmore : (c.copied ++ data).length ≤ c.limit := by
          rw [List.length_append]
          exact Nat.not_lt.mp hlong
        rw [writesOver_cons_of_some hfirst, ih hmore hended]
        simp only [List.length_append, List.append_assoc, Nat.add_assoc]
    · have hsound : (Frame.trailers h).isFailure = false := rfl
      simp only [Body.answers, List.head?_cons, List.tail_cons, List.flatMap_cons, Frame.octets,
        List.nil_append, Body.whole_cons_some hsound]
      have hfirst : advance (some c) (some (.trailers h)) = ⟨some c, [], 0⟩ := rfl
      rw [writesOver_cons_of_some hfirst, ih hfits hended]
    -- whatever comes after a failure, the answers are not whole
    · have hfirst : advance (some c) (some (.failure reason)) = ⟨none, [], 0⟩ := rfl
      rw [Body.answers, List.head?_cons, writesOver_cons_of_none hfirst,
        if_neg fun hstored ↦ Body.not_whole_cons_failure _ _ _ hstored.2]

end Cache.Capture

end Gatehouse
