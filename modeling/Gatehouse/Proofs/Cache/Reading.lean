import Gatehouse.Body
import Mathlib.Tactic.SplitIfs

/-!
# Reading a body to its end

A client that reads to the end gets all frames, or those in front of a failure. If a copy goes
beside the body, **`Body.read_copied`** says what becomes of it: it is finished with all of the data
if nothing failed and the data fits, and otherwise it leaves at most the note that it was skipped.

The bodies inside are *idle*: no copy of them is under way, as with all bodies that handlers give.
The inductions are on the number of questions and keep the body, the copy and the state arbitrary.
-/

namespace Gatehouse.Body

variable {σ : Type} [CacheStore σ]

/-! ## Idle bodies -/

/-- No copy of the body is under way. -/
def IsIdle : Body → Prop
  | full _ => True
  | framed _ _ _ => True
  | copied inner copy => copy = none ∧ inner.IsIdle

/-- An idle body answers its frames in their order and leaves no trace. -/
theorem poll_of_isIdle {b : Body} (hb : b.IsIdle) :
    ∃ rest : Body, rest.IsIdle ∧ rest.frames = b.frames.tail ∧
      ∀ w : World σ, b.poll w = ((b.frames.head?, rest), w) := by
  induction b with
  | full data =>
    rcases data with _ | ⟨x, data⟩
    · exact ⟨full [], trivial, rfl, fun _ ↦ rfl⟩
    · exact ⟨full [], trivial, rfl, fun _ ↦ rfl⟩
  | framed frames said announced =>
    rcases frames with _ | ⟨f, frames⟩
    · exact ⟨framed [] said announced, trivial, rfl, fun _ ↦ rfl⟩
    · exact ⟨framed frames said announced, trivial, rfl, fun _ ↦ rfl⟩
  | copied inner copy ih =>
    obtain ⟨rfl, hinner⟩ := hb
    obtain ⟨rest, hrest, htail, hpoll⟩ := ih hinner
    refine ⟨copied rest none, ⟨rfl, hrest⟩, htail, fun w ↦ ?_⟩
    simp only [poll, bind, StateT.bind, hpoll, frames]
    rcases inner.frames.head? with _ | _ | _ | _ <;> rfl

theorem discard_of_isIdle {b : Body} (hb : b.IsIdle) (w : World σ) : b.discard w = ((), w) := by
  induction b with
  | full data => rfl
  | framed frames said announced => rfl
  | copied inner copy ih =>
    obtain ⟨rfl, hinner⟩ := hb
    exact ih hinner

theorem frames_eq_nil_of_isEnded {b : Body} (hended : b.isEnded = true) : b.frames = [] := by
  induction b with
  | full data =>
    rw [isEnded] at hended
    rw [frames, if_pos hended]
  | framed frames said announced =>
    rw [isEnded, Bool.and_eq_true] at hended
    exact List.isEmpty_iff.mp hended.2
  | copied inner copy ih =>
    rw [isEnded, Bool.and_eq_true] at hended
    exact ih hended.2

/-! ## What is read -/

/-- What is read of frames: all of them, or those in front of a failure. -/
def Reading.ofFrames : List Frame → Reading
  | [] => ⟨[], .finished⟩
  | .failure reason :: _ => ⟨[], .failed reason⟩
  | f :: frames => ⟨f :: (ofFrames frames).frames, (ofFrames frames).ending⟩

theorem Reading.frames_ofFrames {frames : List Frame}
    (h : (ofFrames frames).ending = .finished) : (ofFrames frames).frames = frames := by
  induction frames with
  | nil => rfl
  | cons f frames ih =>
    cases f with
    | data b => exact congrArg _ (ih h)
    | trailers t => exact congrArg _ (ih h)
    | failure reason => cases h

/-! ### One question at a time -/

variable {n : Nat} {b next rest : Body} {w w' w'' : World σ}

theorem readFrames_of_end (hpoll : b.poll w = ((none, next), w')) :
    readFrames (n + 1) b w = ((.ofFrames [], next), w') := by
  simp only [readFrames, bind, StateT.bind, hpoll]
  rfl

theorem readFrames_of_failure {reason : String}
    (hpoll : b.poll w = ((some (.failure reason), next), w')) (frames : List Frame) :
    readFrames (n + 1) b w = ((.ofFrames (.failure reason :: frames), next), w') := by
  simp only [readFrames, bind, StateT.bind, hpoll]
  rfl

theorem readFrames_of_frame {f : Frame} {frames : List Frame} (hf : ∀ reason, f ≠ .failure reason)
    (hpoll : b.poll w = ((some f, next), w'))
    (hread : readFrames n next w' = ((.ofFrames frames, rest), w'')) :
    readFrames (n + 1) b w = ((.ofFrames (f :: frames), rest), w'') := by
  cases f with
  | failure reason => exact absurd rfl (hf reason)
  | data _ | trailers _ =>
    simp only [readFrames, bind, StateT.bind, hpoll, hread]
    rfl

/-- An idle body is read without a trace. -/
theorem readFrames_of_isIdle (hb : b.IsIdle) (hn : b.frames.length < n) (w : World σ) :
    ∃ rest : Body, rest.IsIdle ∧ readFrames n b w = ((.ofFrames b.frames, rest), w) := by
  induction n generalizing b with
  | zero => exact absurd hn (Nat.not_lt_zero _)
  | succ n ih =>
    obtain ⟨next, hnext, htail, hpoll⟩ := poll_of_isIdle (σ := σ) hb
    specialize hpoll w
    rcases hframes : b.frames with _ | ⟨f, frames⟩ <;> rw [hframes] at hn htail hpoll
    · exact ⟨next, hnext, readFrames_of_end hpoll⟩
    rw [List.tail_cons] at htail
    obtain ⟨rest, hrest, hread⟩ := ih hnext (htail ▸ Nat.lt_of_succ_lt_succ hn)
    rw [htail] at hread
    cases f with
    | failure reason => exact ⟨next, hnext, readFrames_of_failure hpoll frames⟩
    | data _ | trailers _ => exact ⟨rest, hrest, readFrames_of_frame nofun hpoll hread⟩

theorem read_of_isIdle (hb : b.IsIdle) (w : World σ) :
    b.read none w = (Reading.ofFrames b.frames, w) := by
  obtain ⟨rest, hrest, hread⟩ := readFrames_of_isIdle hb (Nat.lt_succ_self _) w
  simp only [read, Option.getD_none, bind, StateT.bind, hread, discard_of_isIdle hrest]
  rfl

/-! ## What becomes of a copy -/

/-- A copy of frames that are read to their end is finished: nothing fails, and all data fits. -/
def Completes (c : Cache.Capture) (frames : List Frame) : Prop :=
  (Reading.ofFrames frames).ending = .finished ∧
    c.copied.length + (frames.flatMap Frame.octets).length ≤ c.limit

/-- The copy when all frames are read. -/
def completed (c : Cache.Capture) (frames : List Frame) : Cache.Capture :=
  { c with copied := c.copied ++ frames.flatMap Frame.octets }

/-- What is left behind when a body with a copy was read: a finished copy, or at most the note that
it was skipped. -/
structure CopyRead (c : Cache.Capture) (frames : List Frame) (w w' : World σ) : Prop where
  finished : Completes c frames → w' = ((completed c frames).finish w).2
  skipped : ¬ Completes c frames →
    ∃ notes ∈ [[], [Note.metric (.cacheStore .skipped)]],
      w' = { w with journal := w.journal ++ notes }

namespace CopyRead

variable {c : Cache.Capture} {frames : List Frame} {w w' : World σ}

theorem nil (hfits : c.copied.length ≤ c.limit) : CopyRead c [] w (c.finish w).2 where
  finished _ := by
    rw [completed, List.flatMap_nil, List.append_nil]
  skipped h := absurd ⟨rfl, by simpa using hfits⟩ h

theorem failure (reason : String) : CopyRead c (.failure reason :: frames) w w where
  finished h := nomatch h.1
  skipped _ := ⟨[], by simp, by rw [List.append_nil]⟩

theorem trailers (h : Headers) (hcopy : CopyRead c frames w w') :
    CopyRead c (.trailers h :: frames) w w' where
  finished := hcopy.finished
  skipped := hcopy.skipped

/-- Data that fits is added to the copy. -/
theorem data {d : Bytes} (hcopy : CopyRead { c with copied := c.copied ++ d } frames w w') :
    CopyRead c (.data d :: frames) w w' := by
  have hcompletes : Completes c (.data d :: frames)
      ↔ Completes { c with copied := c.copied ++ d } frames := by
    simp only [Completes, List.flatMap_cons, Frame.octets, List.length_append, Nat.add_assoc]
    exact Iff.rfl
  refine ⟨fun h ↦ ?_, fun h ↦ hcopy.skipped fun h' ↦ h (hcompletes.mpr h')⟩
  rw [hcopy.finished (hcompletes.mp h)]
  simp only [completed, List.flatMap_cons, Frame.octets, List.append_assoc]

/-- Data that does not fit ends the copy. -/
theorem tooLong {d : Bytes} (hlong : c.limit < c.copied.length + d.length) :
    CopyRead c (.data d :: frames) w
      { w with journal := w.journal ++ [.metric (.cacheStore .skipped)] } where
  finished h := by
    have hfits := h.2
    simp only [List.flatMap_cons, Frame.octets, List.length_append] at hfits
    omega
  skipped _ := ⟨[.metric (.cacheStore .skipped)], by simp, rfl⟩

end CopyRead

theorem readFrames_copied {c : Cache.Capture} (hb : b.IsIdle) (hn : b.frames.length < n)
    (hfits : c.copied.length ≤ c.limit) (w : World σ) :
    ∃ rest w', rest.IsIdle ∧ CopyRead c b.frames w w' ∧
      readFrames n (copied b (some c)) w = ((.ofFrames b.frames, rest), w') := by
  induction n generalizing b c with
  | zero => exact absurd hn (Nat.not_lt_zero _)
  | succ n ih =>
    obtain ⟨next, hnext, htail, hpoll⟩ := poll_of_isIdle (σ := σ) hb
    have hidle : (copied next none).IsIdle := ⟨rfl, hnext⟩
    specialize hpoll w
    rcases hframes : b.frames with _ | ⟨f, frames⟩ <;> rw [hframes] at hn htail hpoll
    · have hend : (copied b (some c)).poll w = ((none, copied next none), (c.finish w).2) := by
        simp only [poll, bind, StateT.bind, hpoll]
        rfl
      exact ⟨_, _, hidle, .nil hfits, readFrames_of_end hend⟩
    rw [List.head?_cons] at hpoll
    rw [List.tail_cons] at htail
    have hless : next.frames.length < n := htail ▸ Nat.lt_of_succ_lt_succ hn
    cases f with
    | failure reason =>
      have hfailure : (copied b (some c)).poll w
          = ((some (.failure reason), copied next none), w) := by
        simp only [poll, bind, StateT.bind, hpoll]
        rfl
      exact ⟨_, _, hidle, .failure reason, readFrames_of_failure hfailure frames⟩
    | trailers h =>
      have htrailers : (copied b (some c)).poll w
          = ((some (.trailers h), copied next (some c)), w) := by
        simp only [poll, bind, StateT.bind, hpoll]
        rfl
      obtain ⟨rest, w', hrest, hcopy, hread⟩ := ih hnext hless hfits
      rw [htail] at hcopy hread
      exact ⟨rest, w', hrest, hcopy.trailers h, readFrames_of_frame nofun htrailers hread⟩
    | data d =>
      by_cases hlong : c.limit < c.copied.length + d.length
      · -- the copy is given up, and what is left to be read is idle
        have hgiven : (copied b (some c)).poll w = ((some (.data d), copied next none),
            { w with journal := w.journal ++ [.metric (.cacheStore .skipped)] }) := by
          simp only [poll, bind, StateT.bind, hpoll, Cache.Capture.record, if_pos hlong]
          rfl
        obtain ⟨rest, hrest, hread⟩ := readFrames_of_isIdle (σ := σ) hidle hless _
        rw [Body.frames, htail] at hread
        exact ⟨rest, _, hrest, .tooLong hlong, readFrames_of_frame nofun hgiven hread⟩
      · have hkept : (copied b (some c)).poll w
            = ((some (.data d), copied next (some { c with copied := c.copied ++ d })), w) := by
          simp only [poll, bind, StateT.bind, hpoll, Cache.Capture.record, if_neg hlong]
          rfl
        have hfits' : (c.copied ++ d).length ≤ c.limit := by
          rw [List.length_append]
          exact Nat.not_lt.mp hlong
        obtain ⟨rest, w', hrest, hcopy, hread⟩ :=
          ih (c := { c with copied := c.copied ++ d }) hnext hless hfits'
        rw [htail] at hcopy hread
        exact ⟨rest, w', hrest, hcopy.data, readFrames_of_frame nofun hkept hread⟩

theorem read_copied {c : Cache.Capture} (hb : b.IsIdle)
    (hfits : c.copied.length ≤ c.limit) (w : World σ) :
    ∃ w', CopyRead c b.frames w w' ∧
      (copied b (some c)).read none w = (Reading.ofFrames b.frames, w') := by
  obtain ⟨rest, w', hrest, hcopy, hread⟩ := readFrames_copied hb (Nat.lt_succ_self _) hfits w
  refine ⟨w', hcopy, ?_⟩
  simp only [read, Option.getD_none, bind, StateT.bind, frames, hread, discard_of_isIdle hrest]
  rfl

end Gatehouse.Body
