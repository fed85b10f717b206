import Gatehouse.Layer.Cache
import Gatehouse.Proofs.Cache.Course
import Gatehouse.Proofs.Cache.Reading
import Gatehouse.Proofs.Cache.Waiting
import Gatehouse.Store.Memory

/-!
# Copies are stored whole and once

A client asks for as many frames of a response as it likes, waits for some of them and for others
not, and drops the rest. Whether the copy that grows beside the response is stored must not depend
on how the body is cut into frames, and a copy of a part must never be stored.
**`Service.cached_storesOnce`** compares a client of the cache with a client of the service behind:
it is told the same, and the cache adds one write or none.

The client of the service behind is the cache itself. It passes the questions of its own client on,
but for those that come while the store has not answered. What a copy comes to is then decided by
what the body behind tells, `Capture.course`; only the end may be on its way still, when the body
is dropped, and with it the write. `Flow.Served` is this for any number of questions: it is shown
for one question and it composes, `Flow.Served.append`.

A body may hold copies inside it, if services that cache are nested. Their writes come between those
of the copy outside, in front of them at the end of the body and behind them when it is dropped, so
writes are compared up to their order.
-/

namespace Gatehouse

open Cache

variable {σ : Type}

/-! ## Following a copy -/

namespace Cache.Capture

theorem record_commits (c : Capture) (data : Bytes) :
    (c.record data : Run (Kept σ) _).Commits (advance (some c) (some (.data data))).copy
      (advance (some c) (some (.data data))).writes
      (advance (some c) (some (.data data))).skips := by
  by_cases hlong : c.limit < c.copied.length + data.length
  · rw [record, if_pos hlong, advance, if_pos hlong]
    exact Run.commits_skip.bind_pure fun _ ↦ none
  · rw [record, if_neg hlong, advance, if_neg hlong]
    exact Run.commits_pure _

theorem writes_advance_some (copy : Option Capture) (frame : Frame) :
    (advance copy (some frame)).writes = [] := by
  rcases copy with _ | c
  · rfl
  · rcases frame with data | h | reason
    · rw [advance]
      split <;> rfl
    · rfl
    · rfl

theorem follow_commits (c : Capture) (frame : Frame) :
    (c.follow frame : Run (Kept σ) _).Commits (advance (some c) (some frame)).copy []
      (advance (some c) (some frame)).skips := by
  rcases frame with data | h | reason
  · rw [← writes_advance_some (some c) (.data data)]
    exact c.record_commits data
  · exact Run.commits_pure _
  · exact Run.commits_pure _

/-- The call of the store is no write yet. -/
theorem submit_commits (c : Capture) : (c.submit : Run (Kept σ) Unit).Commits () [] 0 where
  answer_eq _ := rfl
  writes_eq w := (List.append_nil w.store.writes).symm
  attempts_eq w := by simp [submit, Run.note, World.attempts, World.results, List.count_append]
  skipped_eq w := by simp [submit, Run.note, World.results, List.count_append]

/-- Its answer is one write, and one result is counted for it. -/
theorem settle_commits [CacheStore σ] (c : Capture) :
    (c.settle : Run (Kept σ) Unit).Commits () [c.written] 0 := by
  have hsettle : ∀ w : World (Kept σ), ∃ inner notes,
      c.settle w = ((), { w with
        store := ⟨inner, w.store.writes ++ [c.written]⟩, journal := w.journal ++ notes }) ∧
      notes.count (.metric (.cacheStore .stored)) + notes.count (.metric (.cacheStore .error)) = 1 ∧
      notes.count (.metric (.cacheStore .skipped)) = 0 := by
    intro w
    have hset : ∃ answer inner,
        Run.perform (fun now ↦ CacheStore.set now c.key c.entry.encode c.ttl) w
          = (answer, { w with store := ⟨inner, w.store.writes ++ [c.written]⟩ }) := ⟨_, _, rfl⟩
    obtain ⟨e | _, inner, hset⟩ := hset
    · refine ⟨inner, [.metric (.cacheStore .error), .event (.writeFailed c.key e)], ?_, by simp,
        by simp⟩
      simp [settle, bind, StateT.bind, hset, Run.count, Run.log, Run.note]
    · refine ⟨inner, [.metric (.cacheStore .stored)], ?_, by simp, by simp⟩
      simp [settle, bind, StateT.bind, hset, Run.count, Run.note]
  -- a store that fails keeps the write all the same, so only the notes differ
  refine ⟨fun w ↦ ?_, fun w ↦ ?_, fun w ↦ ?_, fun w ↦ ?_⟩ <;>
    obtain ⟨inner, notes, hw, hresult, hskipped⟩ := hsettle w
  · rw [hw]
  · rw [hw]
  · rw [hw]
    simp only [World.attempts, World.results, List.count_append, List.length_singleton]
    omega
  · rw [hw]
    simp only [World.results, List.count_append, hskipped]

theorem finish_commits [CacheStore σ] (c : Capture) :
    (c.finish : Run (Kept σ) Unit).Commits () [c.written] 0 := by
  rw [finish_eq]
  exact c.submit_commits.bind (f := fun _ ↦ c.settle) c.settle_commits

end Cache.Capture

namespace Cache.Copy

/-- The copy that still grows. -/
def capture? : Copy → Option Capture
  | growing c => some c
  | _ => none

/-- What will be written whatever the client does. -/
def owed : Copy → List Written
  | writing c => [c.written]
  | _ => []

/-- What the body has told and the client has not been told. -/
def untold : Copy → List (Option Frame)
  | writing _ => [none]
  | _ => []

theorem ofCapture_cases (copy : Option Capture) :
    (ofCapture copy).capture? = copy ∧ (ofCapture copy).owed = [] ∧
      (ofCapture copy).untold = [] := by
  cases copy <;> exact ⟨rfl, rfl, rfl⟩

end Cache.Copy

/-! ## One question -/

namespace Flow

/-- The frames that a body will hand out. -/
def frames : Flow → List Frame
  | plain b => b.frames
  | copied inner _ => inner.frames

/-- Copies are written only at the end of a body, and all copies are seen. -/
def Sound : Flow → Prop
  | plain b => b.IsIdle
  | copied inner copy => inner.Sound ∧ (copy.untold ≠ [] → inner.frames = [])

theorem frames_flow (b : Body) : b.flow.frames = b.frames := by
  induction b with
  | full | framed => rfl
  | copied inner copy ih => exact ih

theorem sound_flow (b : Body) : b.flow.Sound := by
  induction b with
  | full | framed => exact trivial
  | copied inner copy ih => exact ⟨ih, fun hne ↦ absurd (Copy.ofCapture_cases copy).2.2 hne⟩

/-- What is left of a body that was asked once. -/
def Gives (f : Flow) : Option (Option Frame × Nat) → Flow → Prop
  | none, rest => rest.frames = f.frames
  | some (answer, _), rest => answer = f.frames.head? ∧ rest.frames = f.frames.tail

variable [CacheStore σ]

theorem await_zero_commits (inner : Flow) (c : Capture) :
    (await inner c 0 : Run (Kept σ) _).Commits (none, copied inner (.writing c)) [] 0 :=
  Run.commits_pure _

theorem await_succ_commits (inner : Flow) (c : Capture) (n : Nat) :
    (await inner c (n + 1) : Run (Kept σ) _).Commits (some (none, n), copied inner .gone)
      [c.written] 0 :=
  c.settle_commits.bind_pure fun _ ↦ (some (none, n), copied inner .gone)

section Copied

variable {f rest : Flow} {n : Nat} {writes : List Written} {skips : Nat} {c : Capture}

theorem ask_growing_of_none (hask : (f.ask n : Run (Kept σ) _).Commits (none, rest) writes skips) :
    ((copied f (.growing c)).ask n : Run (Kept σ) _).Commits
      (none, copied rest (.growing c)) writes skips := by
  rw [ask, ← List.append_nil writes, ← Nat.add_zero skips]
  exact hask.bind (Run.commits_pure _)

theorem ask_growing_of_frame {frame : Frame} {left : Nat}
    (hask : (f.ask n : Run (Kept σ) _).Commits (some (some frame, left), rest) writes skips) :
    ((copied f (.growing c)).ask n : Run (Kept σ) _).Commits
      (some (some frame, left),
        copied rest (.ofCapture (Capture.advance (some c) (some frame)).copy))
      writes (skips + (Capture.advance (some c) (some frame)).skips) := by
  rw [ask, ← List.append_nil writes]
  exact hask.bind ((c.follow_commits frame).bind_pure fun copy ↦
    (some (some frame, left), copied rest (.ofCapture copy)))

/-- At the end of the body the store is called, and the client waits for its answer. -/
theorem ask_growing_of_end {left : Nat} {answer : Option (Option Frame × Nat) × Flow}
    {own : List Written}
    (hask : (f.ask n : Run (Kept σ) _).Commits (some (none, left), rest) writes skips)
    (hawait : (await rest c left : Run (Kept σ) _).Commits answer own 0) :
    ((copied f (.growing c)).ask n : Run (Kept σ) _).Commits answer (writes ++ own) skips := by
  rw [ask, ← Nat.add_zero skips]
  exact hask.bind (c.submit_commits.bind (f := fun _ ↦ await rest c left) hawait)

theorem ask_gone {answer : Option (Option Frame × Nat)}
    (hask : (f.ask n : Run (Kept σ) _).Commits (answer, rest) writes skips) :
    ((copied f .gone).ask n : Run (Kept σ) _).Commits (answer, copied rest .gone) writes skips := by
  rw [ask]
  exact hask.bind_pure fun x ↦ (x.1, copied x.2 .gone)

end Copied

theorem sound_copied_of_untold_eq_nil {inner : Flow} {copy : Copy} (hinner : inner.Sound)
    (huntold : copy.untold = []) : (copied inner copy).Sound :=
  ⟨hinner, fun hne ↦ absurd huntold hne⟩

/-- A body answers its frames in their order, if it answers. -/
theorem ask_commits {f : Flow} (hf : f.Sound) (n : Nat) : ∃ answer rest writes skips,
    (f.ask n : Run (Kept σ) _).Commits (answer, rest) writes skips ∧
      rest.Sound ∧ f.Gives answer rest := by
  induction f generalizing n with
  | plain b =>
    rcases n with _ | n
    · exact ⟨none, plain b, [], 0, Run.commits_pure _, hf, rfl⟩
    · obtain ⟨rest, hrest, htail, hpoll⟩ := Body.poll_of_isIdle (σ := Kept σ) hf
      refine ⟨some (b.frames.head?, n), plain rest, [], 0, ?_, hrest, rfl, htail⟩
      have hask : (plain b).ask n.succ
          = (pure (some (b.frames.head?, n), plain rest) : Run (Kept σ) _) := by
        funext w
        simp only [ask, bind, StateT.bind, hpoll]
      rw [hask]
      exact Run.commits_pure _
  | copied inner copy ih =>
    obtain ⟨hinner, hend⟩ := hf
    rcases copy with c | c | _
    · obtain ⟨answer, rest, writes, skips, hask, hrest, hgives⟩ := ih hinner n
      rcases answer with _ | ⟨_ | frame, left⟩
      · exact ⟨_, _, _, _, ask_growing_of_none hask, sound_copied_of_untold_eq_nil hrest rfl,
          hgives⟩
      · -- the body has no more frames, so its copy may be written
        obtain ⟨hhead, htail⟩ := hgives
        have hnil : inner.frames = [] := List.head?_eq_none_iff.mp hhead.symm
        rw [hnil] at htail
        rcases left with _ | left
        · refine ⟨_, _, _, _, ask_growing_of_end hask (await_zero_commits rest c),
            ⟨hrest, fun _ ↦ htail⟩, ?_⟩
          exact htail.trans hnil.symm
        · refine ⟨_, _, _, _, ask_growing_of_end hask (await_succ_commits rest c left),
            sound_copied_of_untold_eq_nil hrest rfl, hhead, ?_⟩
          rw [frames, htail, frames, hnil]
      · exact ⟨_, _, _, _, ask_growing_of_frame hask,
          sound_copied_of_untold_eq_nil hrest (Copy.ofCapture_cases _).2.2, hgives⟩
    · have hnil : inner.frames = [] := hend (List.cons_ne_nil _ _)
      rcases n with _ | n
      · exact ⟨_, _, _, _, await_zero_commits inner c, ⟨hinner, hend⟩, rfl⟩
      · refine ⟨_, _, _, _, await_succ_commits inner c n, sound_copied_of_untold_eq_nil hinner rfl,
          ?_⟩
        rw [Gives, frames, frames, hnil]
        exact ⟨rfl, rfl⟩
    · obtain ⟨answer, rest, writes, skips, hask, hrest, hgives⟩ := ih hinner n
      refine ⟨_, _, _, _, ask_gone hask, sound_copied_of_untold_eq_nil hrest rfl, ?_⟩
      rcases answer with _ | ⟨answer, left⟩
      · exact hgives
      · exact hgives

/-! ## Any number of questions -/

/-- What happens to a body with a copy while a client asks for frames. -/
structure Record where
  /-- The questions that reach the body, and what it tells. -/
  passed : List Nat
  told : List (Option Frame)
  /-- What is left of the body, what copies inside it have written, and how many were given up. -/
  rest : Flow
  writes : List Written
  skips : Nat
  /-- What the client is told. -/
  heard : List (Option Frame)
  /-- What is left of the copy, and all that was written. -/
  copy : Copy
  allWrites : List Written

/-- The record of a body and its copy: the copy follows what the body tells, except that its write
and the end of the body are still to come while the store has not answered. -/
structure Served (σ : Type) [CacheStore σ] (f : Flow) (copy : Copy) (ns : List Nat) (r : Record) :
    Prop where
  passed_sublist : r.passed.Sublist ns
  behind : (asks r.passed f : Run (Kept σ) _).Commits (r.told, r.rest) r.writes r.skips
  through : (asks ns (copied f copy) : Run (Kept σ) _).Commits (r.heard, copied r.rest r.copy)
    r.allWrites (r.skips + (Capture.course copy.capture? r.told).skips)
  sound : (copied r.rest r.copy).Sound
  told_eq : r.told = Body.answers r.told.length f.frames
  frames_eq : r.rest.frames = f.frames.drop r.told.length
  capture_eq : r.copy.capture? = (Capture.course copy.capture? r.told).copy
  untold_eq : copy.untold ++ r.told = r.heard ++ r.copy.untold
  writes_perm : (r.allWrites ++ r.copy.owed).Perm
    (r.writes ++ (copy.owed ++ (Capture.course copy.capture? r.told).writes))
  heard_of_ne_gone : r.copy ≠ .gone → none ∉ r.heard
  gone : copy = .gone → r.copy = .gone

theorem asks_append (ns ns' : List Nat) (f : Flow) :
    (asks (ns ++ ns') f : Run σ _) = do
      let (told, f) ← asks ns f
      let (told', f) ← asks ns' f
      return (told ++ told', f) := by
  induction ns generalizing f with
  | nil => rfl
  | cons n ns ih =>
    simp only [List.cons_append, asks, ih, bind_assoc, pure_bind, List.append_assoc]

theorem asks_append_commits {ns ns' : List Nat} {f next rest : Flow}
    {told told' : List (Option Frame)} {writes writes' : List Written} {skips skips' : Nat}
    (hfirst : (asks ns f : Run (Kept σ) _).Commits (told, next) writes skips)
    (hrest : (asks ns' next : Run (Kept σ) _).Commits (told', rest) writes' skips') :
    (asks (ns ++ ns') f : Run (Kept σ) _).Commits (told ++ told', rest) (writes ++ writes')
      (skips + skips') := by
  rw [asks_append]
  exact hfirst.bind (hrest.bind_pure fun x ↦ (told ++ x.1, x.2))

theorem asks_singleton_commits {n : Nat} {f rest : Flow} {answer : Option (Option Frame × Nat)}
    {writes : List Written} {skips : Nat}
    (hask : (f.ask n : Run (Kept σ) _).Commits (answer, rest) writes skips) :
    (asks [n] f : Run (Kept σ) _).Commits ((answer.map Prod.fst).toList, rest) writes skips := by
  have h := hask.bind_pure fun x ↦ ((x.1.map Prod.fst).toList ++ [], x.2)
  rwa [List.append_nil] at h

theorem asks_commits {f : Flow} (hf : f.Sound) (ns : List Nat) : ∃ told rest writes skips,
    (asks ns f : Run (Kept σ) _).Commits (told, rest) writes skips ∧ rest.Sound := by
  induction ns generalizing f with
  | nil => exact ⟨[], f, [], 0, Run.commits_pure _, hf⟩
  | cons n ns ih =>
    obtain ⟨answer, next, writes, skips, hask, hnext, -⟩ := ask_commits (σ := σ) hf n
    obtain ⟨told, rest, writes', skips', hasks, hrest⟩ := ih hnext
    exact ⟨_, rest, _, _, asks_append_commits (asks_singleton_commits hask) hasks, hrest⟩

namespace Served

/-- Records of questions that follow one another make one record. -/
theorem append {f : Flow} {copy : Copy} {ns ns' : List Nat} {r r' : Record}
    (h : Served σ f copy ns r) (h' : Served σ r.rest r.copy ns' r') :
    Served σ f copy (ns ++ ns')
      { passed := r.passed ++ r'.passed, told := r.told ++ r'.told, rest := r'.rest
        writes := r.writes ++ r'.writes, skips := r.skips + r'.skips
        heard := r.heard ++ r'.heard, copy := r'.copy
        allWrites := r.allWrites ++ r'.allWrites } := by
  have hcourse := Capture.course_append copy.capture? r.told r'.told
  simp only [← h.capture_eq] at hcourse
  constructor
  case passed_sublist => exact h.passed_sublist.append h'.passed_sublist
  case behind => exact asks_append_commits h.behind h'.behind
  case through =>
    rw [hcourse, Nat.add_add_add_comm]
    exact asks_append_commits h.through h'.through
  case sound => exact h'.sound
  case told_eq =>
    rw [List.length_append, Body.answers_add, ← h.told_eq, ← h.frames_eq, ← h'.told_eq]
  case frames_eq => rw [List.length_append, h'.frames_eq, h.frames_eq, List.drop_drop]
  case capture_eq => rw [hcourse, h'.capture_eq]
  case untold_eq =>
    rw [← List.append_assoc, h.untold_eq, List.append_assoc, h'.untold_eq, List.append_assoc]
  case writes_perm =>
    rw [hcourse]
    -- what is owed in between is written by the questions behind
    have hfirst := h.writes_perm
    have hrest := h'.writes_perm
    simp only [List.perm_iff_count, List.count_append] at hfirst hrest ⊢
    intro a
    have := hfirst a
    have := hrest a
    omega
  case heard_of_ne_gone =>
    intro hne hmem
    rcases List.mem_append.mp hmem with hmem | hmem
    · exact h.heard_of_ne_gone (fun hgone ↦ hne (h'.gone hgone)) hmem
    · exact h'.heard_of_ne_gone hne hmem
  case gone => exact fun hgone ↦ h'.gone (h.gone hgone)

/-- Without questions nothing happens. -/
theorem nil {f : Flow} {copy : Copy} (h : (copied f copy).Sound) :
    Served σ f copy [] ⟨[], [], f, [], 0, [], copy, []⟩ where
  passed_sublist := List.Sublist.refl []
  behind := Run.commits_pure _
  through := Run.commits_pure _
  sound := h
  told_eq := rfl
  frames_eq := rfl
  capture_eq := rfl
  untold_eq := List.append_nil _
  writes_perm := by simp [Capture.course]
  heard_of_ne_gone _ := List.not_mem_nil
  gone := id

theorem answers_of_gives {f rest : Flow} {answer : Option (Option Frame × Nat)}
    (h : f.Gives answer rest) :
    (answer.map Prod.fst).toList
        = Body.answers (answer.map Prod.fst).toList.length f.frames ∧
      rest.frames = f.frames.drop (answer.map Prod.fst).toList.length := by
  rcases answer with _ | ⟨answer, left⟩
  · exact ⟨rfl, h⟩
  · obtain ⟨rfl, htail⟩ := h
    exact ⟨rfl, by simpa using htail⟩

/-- A question that reaches the body. -/
theorem of_ask {f rest : Flow} {copy : Copy} {n : Nat} {writes : List Written} {skips : Nat}
    {answer : Option (Option Frame × Nat)} (answer' : Option (Option Frame × Nat)) (copy' : Copy)
    (own : List Written)
    (hask : (f.ask n : Run (Kept σ) _).Commits (answer, rest) writes skips)
    (hgives : f.Gives answer rest)
    (hcopied : ((copied f copy).ask n : Run (Kept σ) _).Commits (answer', copied rest copy')
      (writes ++ own)
      (skips + (Capture.course copy.capture? (answer.map Prod.fst).toList).skips))
    (hsound : (copied rest copy').Sound)
    (hcapture : copy'.capture?
      = (Capture.course copy.capture? (answer.map Prod.fst).toList).copy)
    (huntold : copy.untold ++ (answer.map Prod.fst).toList
      = (answer'.map Prod.fst).toList ++ copy'.untold)
    (hown : own ++ copy'.owed
      = copy.owed ++ (Capture.course copy.capture? (answer.map Prod.fst).toList).writes)
    (hheard : copy' ≠ .gone → none ∉ (answer'.map Prod.fst).toList)
    (hgone : copy = .gone → copy' = .gone) :
    Served σ f copy [n] ⟨[n], (answer.map Prod.fst).toList, rest, writes, skips,
      (answer'.map Prod.fst).toList, copy', writes ++ own⟩ where
  passed_sublist := List.Sublist.refl [n]
  behind := asks_singleton_commits hask
  through := asks_singleton_commits hcopied
  sound := hsound
  told_eq := (answers_of_gives hgives).1
  frames_eq := (answers_of_gives hgives).2
  capture_eq := hcapture
  untold_eq := huntold
  writes_perm := by rw [List.append_assoc, hown]
  heard_of_ne_gone := hheard
  gone := hgone

/-- A question for whose answer the store is not ready. -/
theorem of_unsettled {f : Flow} {c : Capture} (h : (copied f (.writing c)).Sound) :
    Served σ f (.writing c) [0] ⟨[], [], f, [], 0, [], .writing c, []⟩ where
  passed_sublist := List.nil_sublist _
  behind := Run.commits_pure _
  through := asks_singleton_commits (f := copied f (.writing c)) (await_zero_commits f c)
  sound := h
  told_eq := rfl
  frames_eq := rfl
  capture_eq := rfl
  untold_eq := rfl
  writes_perm := by simp [Capture.course, Copy.capture?]
  heard_of_ne_gone _ := List.not_mem_nil
  gone := Copy.noConfusion

/-- A question that is answered as soon as the store is. -/
theorem of_settled {f : Flow} (hf : f.Sound) (c : Capture) (n : Nat) :
    Served σ f (.writing c) [n + 1] ⟨[], [], f, [], 0, [none], .gone, [c.written]⟩ where
  passed_sublist := List.nil_sublist _
  behind := Run.commits_pure _
  through := asks_singleton_commits (f := copied f (.writing c)) (await_succ_commits f c n)
  sound := sound_copied_of_untold_eq_nil hf rfl
  told_eq := rfl
  frames_eq := rfl
  capture_eq := rfl
  untold_eq := rfl
  writes_perm := by simp [Capture.course, Copy.capture?, Copy.owed]
  heard_of_ne_gone hne := absurd rfl hne
  gone := Copy.noConfusion

/-! ### A copy that grows at the beginning -/

section Growing

variable {f : Flow} {c : Capture} {ns : List Nat} {r : Record}

theorem told_of_growing (h : Served σ f (.growing c) ns r) :
    r.told = r.heard ∨ r.told = r.heard ++ [none] ∧ ∃ c, r.copy = .writing c := by
  have huntold : r.told = r.heard ++ r.copy.untold := h.untold_eq
  rcases hcopy : r.copy with c | c | _ <;> rw [hcopy] at huntold
  · exact .inl (huntold.trans (List.append_nil _))
  · exact .inr ⟨huntold, c, rfl⟩
  · exact .inl (huntold.trans (List.append_nil _))

/-- What is written up to the end, and when the body is dropped. -/
theorem writes_of_growing (h : Served σ f (.growing c) ns r) (dropped : List Written) :
    (r.allWrites ++
        (r.copy.owed ++ Capture.parting r.copy.capture? r.rest.isEnded ++ dropped)).Perm
      (r.writes ++ dropped ++ Capture.writesOver (some c) r.told r.rest.isEnded) := by
  have hcapture : r.copy.capture? = (Capture.course (some c) r.told).copy := h.capture_eq
  have hwrites : (r.allWrites ++ r.copy.owed).Perm
      (r.writes ++ (Capture.course (some c) r.told).writes) := h.writes_perm
  rw [Capture.writesOver, hcapture]
  -- the copies inside are written before the copy outside, or dropped behind it
  simp only [List.perm_iff_count, List.count_append] at hwrites ⊢
  intro a
  have := hwrites a
  omega

/-- Once the client was told the end, there is nothing left to be written. -/
theorem writes_of_mem_heard (h : Served σ f (.growing c) ns r) (hend : none ∈ r.heard) :
    r.allWrites.Perm (r.writes ++ Capture.writesOver (some c) r.told r.rest.isEnded) := by
  have hgone : r.copy = .gone :=
    Decidable.byContradiction fun hne ↦ h.heard_of_ne_gone hne hend
  have hwrites := h.writes_of_growing []
  rw [hgone, List.append_nil r.writes] at hwrites
  rwa [← List.append_nil r.allWrites]

end Growing

end Served

/-! ### One question -/

/-- A copy that is gone stays so, and all questions are for the body. -/
theorem exists_served_gone {f : Flow} (hf : f.Sound) (n : Nat) :
    ∃ r, Served σ f .gone [n] r := by
  obtain ⟨answer, rest, writes, skips, hask, hrest, hgives⟩ := ask_commits (σ := σ) hf n
  have hcourse : Capture.course Copy.gone.capture? (answer.map Prod.fst).toList = ⟨none, [], 0⟩ :=
    Capture.course_none _
  refine ⟨_, .of_ask answer .gone [] hask hgives ?_ (sound_copied_of_untold_eq_nil hrest rfl)
    ?_ ?_ ?_ (fun hne ↦ absurd rfl hne) fun _ ↦ rfl⟩
  · rw [hcourse, List.append_nil]
    exact ask_gone hask
  · rw [hcourse]
    rfl
  · exact (List.append_nil _).symm
  · rw [hcourse]
    rfl

/-- A copy that grows follows what the body answers. -/
theorem exists_served_growing {f : Flow} (hf : f.Sound) (c : Capture) (n : Nat) :
    ∃ r, Served σ f (.growing c) [n] r := by
  obtain ⟨answer, rest, writes, skips, hask, hrest, hgives⟩ := ask_commits (σ := σ) hf n
  rcases answer with _ | ⟨_ | frame, left⟩
  · refine ⟨_, .of_ask none (.growing c) [] hask hgives ?_
      (sound_copied_of_untold_eq_nil hrest rfl) rfl rfl rfl (fun _ ↦ List.not_mem_nil)
      Copy.noConfusion⟩
    rw [List.append_nil]
    exact ask_growing_of_none hask
  · -- the body has no more frames, and the store is called
    have hnil : f.frames = [] := List.head?_eq_none_iff.mp hgives.1.symm
    have hend : rest.frames = [] := by rw [hgives.2, hnil, List.tail_nil]
    rcases left with _ | left
    · exact ⟨_, .of_ask none (.writing c) [] hask hgives
        (ask_growing_of_end hask (await_zero_commits rest c)) ⟨hrest, fun _ ↦ hend⟩ rfl rfl rfl
        (fun _ ↦ List.not_mem_nil) Copy.noConfusion⟩
    · exact ⟨_, .of_ask (some (none, left)) .gone [c.written] hask hgives
        (ask_growing_of_end hask (await_succ_commits rest c left))
        (sound_copied_of_untold_eq_nil hrest rfl) rfl rfl rfl (fun hne ↦ absurd rfl hne)
        Copy.noConfusion⟩
  · obtain ⟨hcapture, howed, huntold⟩ :=
      Copy.ofCapture_cases (Capture.advance (some c) (some frame)).copy
    refine ⟨_, .of_ask (some (some frame, left))
      (.ofCapture (Capture.advance (some c) (some frame)).copy) [] hask hgives ?_
      (sound_copied_of_untold_eq_nil hrest huntold) hcapture ?_ ?_ ?_ Copy.noConfusion⟩
    · rw [List.append_nil]
      exact ask_growing_of_frame hask
    · rw [huntold, List.append_nil]
      rfl
    · rw [howed]
      simp [Capture.course, Copy.capture?, Copy.owed, Capture.writes_advance_some]
    · exact fun _ ↦ by simp

theorem exists_served_singleton {f : Flow} {copy : Copy} (h : (copied f copy).Sound) (n : Nat) :
    ∃ r, Served σ f copy [n] r := by
  cases copy with
  | growing c => exact exists_served_growing h.1 c n
  | gone => exact exists_served_gone h.1 n
  | writing c =>
    -- the question does not reach the body: the store is asked for its answer
    rcases n with _ | n
    · exact ⟨_, .of_unsettled h⟩
    · exact ⟨_, .of_settled h.1 c n⟩

/-- Any number of questions. -/
theorem exists_served {f : Flow} {copy : Copy} (h : (copied f copy).Sound) (ns : List Nat) :
    ∃ r, Served σ f copy ns r := by
  induction ns generalizing f copy with
  | nil => exact ⟨_, .nil h⟩
  | cons n ns ih =>
    obtain ⟨r, hfirst⟩ := exists_served_singleton (σ := σ) h n
    obtain ⟨r', hrest⟩ := ih hfirst.sound
    exact ⟨_, hfirst.append hrest⟩

/-! ## Dropping the body -/

omit [CacheStore σ] in
theorem frames_eq_nil_of_isEnded {f : Flow} (hended : f.isEnded = true) : f.frames = [] := by
  induction f with
  | plain b => exact Body.frames_eq_nil_of_isEnded hended
  | copied inner copy ih =>
    rcases copy with c | c | _
    · cases hended
    · cases hended
    · exact ih hended

/-- What is dropped of a body may still be written: the copies that the store was called for, and
those whose end is known. -/
theorem discard_commits {f : Flow} (hf : f.Sound) : ∃ writes,
    (f.discard : Run (Kept σ) Unit).Commits () writes 0 ∧
      ∀ copy, ((copied f copy).discard : Run (Kept σ) Unit).Commits ()
        (copy.owed ++ Capture.parting copy.capture? f.isEnded ++ writes) 0 := by
  -- for every body, because a body with a copy may itself be copied
  have hcopied : ∀ (f : Flow) (writes : List Written),
      (f.discard : Run (Kept σ) Unit).Commits () writes 0 →
      ∀ copy, ((copied f copy).discard : Run (Kept σ) Unit).Commits ()
        (copy.owed ++ Capture.parting copy.capture? f.isEnded ++ writes) 0 := by
    intro f writes hf copy
    rcases copy with c | c | _
    · rw [discard]
      cases hended : f.isEnded with
      | false => exact hf
      | true => exact c.finish_commits.bind (f := fun _ ↦ f.discard) hf
    · rw [discard]
      exact c.settle_commits.bind (f := fun _ ↦ f.discard) hf
    · exact hf
  induction f with
  | plain b =>
    have hplain : (b.discard : Run (Kept σ) Unit) = pure () :=
      funext fun w ↦ Body.discard_of_isIdle hf w
    have hnothing : ((plain b).discard : Run (Kept σ) Unit).Commits () [] 0 := by
      rw [discard, hplain]
      exact Run.commits_pure ()
    exact ⟨[], hnothing, hcopied _ _ hnothing⟩
  | copied inner copy ih =>
    obtain ⟨writes, -, hinner⟩ := ih hf.1
    exact ⟨_, hinner copy, hcopied _ _ (hinner copy)⟩

end Flow

/-! ## Clients -/

/-- What a client got of a body, and what it left: the answers to its questions, the body that it
dropped, and the states after it had asked and after it had dropped the body. -/
structure Delivery (σ : Type) where
  told : List (Option Frame)
  dropped : Flow
  read : World σ
  done : World σ

variable [CacheStore σ]

/-- A client asks a body so many times, whatever it is answered, and then drops the body. With each
question comes the number of things that it does not have to wait for. -/
def Flow.deliver (ns : List Nat) (f : Flow) (w : World σ) : Delivery σ :=
  let r := asks ns f w
  ⟨r.1.1, r.1.2, r.2, (r.1.2.discard r.2).2⟩

theorem Flow.exists_asks_of_readFrames (n : Nat) (b : Body) (w : World σ) :
    ∃ ns told, asks ns b.flow w
      = ((told, (Body.readFrames n b w).1.2.flow), (Body.readFrames n b w).2) := by
  induction n generalizing b w with
  | zero => exact ⟨[], [], rfl⟩
  | succ n ih =>
    rcases hpoll : b.poll w with ⟨⟨answer, next⟩, w'⟩
    -- the client waits for the frame and for all copies
    obtain ⟨left, -, hask⟩ := ask_flow b (Nat.lt_succ_self b.copies) w
    rw [hpoll] at hask
    obtain ⟨ns, told, hasks⟩ := ih next w'
    -- reading stops at the end and at a failure, and goes on otherwise
    rcases answer with _ | data | h | reason
    · refine ⟨[b.copies + 1], [none], ?_⟩
      simp only [asks, Body.readFrames, bind, StateT.bind, hask, hpoll]
      rfl
    · refine ⟨(b.copies + 1) :: ns, some (.data data) :: told, ?_⟩
      simp only [asks, Body.readFrames, bind, StateT.bind, hask, hpoll, hasks]
      rfl
    · refine ⟨(b.copies + 1) :: ns, some (.trailers h) :: told, ?_⟩
      simp only [asks, Body.readFrames, bind, StateT.bind, hask, hpoll, hasks]
      rfl
    · refine ⟨[b.copies + 1], [some (.failure reason)], ?_⟩
      simp only [asks, Body.readFrames, bind, StateT.bind, hask, hpoll]
      rfl

/-- Reading a body, to its end or up to a number of frames, is being such a client. -/
theorem Body.exists_deliver_of_read (limit : Option Nat) (b : Body) (w : World σ) :
    ∃ ns, (b.read limit w).2 = (b.flow.deliver ns w).done := by
  obtain ⟨ns, told, hasks⟩ :=
    Flow.exists_asks_of_readFrames (limit.getD (b.frames.length + 1)) b w
  refine ⟨ns, ?_⟩
  rw [Flow.deliver, hasks, Flow.discard_flow]
  rfl

/-- What is written to the store for a response, under the given key. -/
def Response.written (r : Response) (key : String) (ttl : Duration) : Written :=
  ⟨key, (Entry.capture r.status r.headers (r.body.frames.flatMap Frame.octets)).encode, ttl⟩

namespace CacheSettings

/-- A response that may be stored: it has the status 200, sets no cookie, is not known to be too
long and is not too long. -/
def Storable (settings : CacheSettings) (r : Response) : Prop :=
  r.status = .ok ∧ r.headers.contains Entry.setCookie = false ∧
    r.body.hint.lower ≤ settings.maxEntryBytes ∧
    (r.body.frames.flatMap Frame.octets).length ≤ settings.maxEntryBytes

instance (settings : CacheSettings) (r : Response) : Decidable (settings.Storable r) :=
  inferInstanceAs (Decidable (_ ∧ _))

/-- What the cache itself writes: the response, if it may be stored and was delivered whole. -/
def own (settings : CacheSettings) (key : String) (r : Response) (d : Delivery σ) :
    List Written :=
  if settings.Storable r ∧ Body.Whole d.told d.dropped.isEnded then
    [r.written key settings.ttl]
  else []

/-- How a client that is served through the cache fares, beside the cache as a client of the service
behind. -/
structure StoresOnce (settings : CacheSettings) (key : String) (r : Response)
    (behind through : Delivery (Kept σ)) : Prop where
  /-- The answers are the same, but for the end of a body that is dropped while its copy is being
  written: the cache was told it, and its client was not. -/
  told_eq : behind.told = through.told ∨ behind.told = through.told ++ [none] ∧
    ∃ c, through.dropped = .copied behind.dropped (.writing c)
  /-- What is left of the body behind is what is left of it inside the body of the client. -/
  dropped_eq : through.dropped = behind.dropped ∨
    ∃ copy, through.dropped = .copied behind.dropped copy
  /-- The cache adds its own write. -/
  writes_perm :
    through.done.store.writes.Perm (behind.done.store.writes ++ settings.own key r behind)
  /-- The write is made before the end is told. -/
  writes_read : none ∈ through.told →
    through.read.store.writes.Perm (behind.read.store.writes ++ settings.own key r behind)
  /-- Each write is counted as stored or failed. -/
  attempts_eq :
    through.done.attempts = behind.done.attempts + (settings.own key r behind).length
  /-- What is written is not skipped, and nothing is skipped twice. -/
  skipped_eq : ∃ skips,
    through.done.results .skipped = behind.done.results .skipped + skips ∧
      (settings.own key r behind).length + skips ≤ 1

end CacheSettings

theorem Flow.deliver_spec {ns : List Nat} {f rest : Flow} {told : List (Option Frame)}
    {writes dropped : List Written} {skips : Nat}
    (hasks : (asks ns f : Run (Kept σ) _).Commits (told, rest) writes skips)
    (hdiscard : (rest.discard : Run (Kept σ) Unit).Commits () dropped 0) (w : World (Kept σ)) :
    let d := f.deliver ns w
    d.told = told ∧ d.dropped = rest ∧ d.read.store.writes = w.store.writes ++ writes ∧
      d.done.store.writes = w.store.writes ++ (writes ++ dropped) ∧
      d.done.attempts = w.attempts + (writes ++ dropped).length ∧
      d.done.results .skipped = w.results .skipped + skips := by
  have hrest : (asks ns f w).1.2 = rest := by rw [hasks.answer_eq]
  refine ⟨?_, hrest, hasks.writes_eq w, ?_, ?_, ?_⟩
  · rw [deliver, hasks.answer_eq]
  · rw [deliver, hrest, hdiscard.writes_eq, hasks.writes_eq, List.append_assoc]
  · rw [deliver, hrest, hdiscard.attempts_eq, hasks.attempts_eq, List.length_append,
      Nat.add_assoc]
  · rw [deliver, hrest, hdiscard.skipped_eq, hasks.skipped_eq, Nat.add_zero]

/-! ## Services that cache -/

namespace Service

/-- The copy with which a response leaves. -/
def copyOf (settings : CacheSettings) (key : String) (r : Response) : Capture where
  key := key
  ttl := settings.ttl
  limit := settings.maxEntryBytes
  status := r.status
  headers := r.headers
  copied := []

omit [CacheStore σ] in
/-- A response leaves with an empty copy, or it may not be stored and leaves as it is. -/
theorem capturing_commits (settings : CacheSettings) (key : String) (r : Response) :
    ((capturing settings key r : Run (Kept σ) _).Commits
        { r with body := .copied r.body (some (copyOf settings key r)) } [] 0 ∧
      r.status = .ok ∧ r.headers.contains Entry.setCookie = false ∧
        r.body.hint.lower ≤ settings.maxEntryBytes) ∨
    ∃ skips ≤ 1, (capturing settings key r : Run (Kept σ) _).Commits r [] skips ∧
      ¬ settings.Storable r := by
  rw [capturing]
  by_cases hok : r.status = .ok
  · rw [if_neg fun hne ↦ hne hok]
    cases hcookie : r.headers.contains Entry.setCookie with
    | true =>
      refine .inr ⟨1, Nat.le_refl 1, Run.commits_skip.bind_pure fun _ ↦ r, fun hstorable ↦ ?_⟩
      rw [hstorable.2.1] at hcookie
      cases hcookie
    | false =>
      rw [if_neg Bool.false_ne_true]
      by_cases hlong : settings.maxEntryBytes < r.body.hint.lower
      · rw [if_pos hlong]
        refine .inr ⟨1, Nat.le_refl 1, Run.commits_skip.bind_pure fun _ ↦ r, fun hstorable ↦ ?_⟩
        exact Nat.not_le.mpr hlong hstorable.2.2.1
      · rw [if_neg hlong]
        exact .inl ⟨Run.commits_pure _, hok, rfl, Nat.not_lt.mp hlong⟩
  · rw [if_pos hok]
    exact .inr ⟨0, Nat.zero_le 1, Run.commits_pure r, fun hstorable ↦ hok hstorable.1⟩

omit [CacheStore σ] in
/-- For a response that leaves with an empty copy the cache writes what the course of the copy
writes. -/
theorem own_eq_writesOver {settings : CacheSettings} {r : Response} {d : Delivery σ}
    (hok : r.status = .ok) (hcookie : r.headers.contains Entry.setCookie = false)
    (hlower : r.body.hint.lower ≤ settings.maxEntryBytes)
    (htold : d.told = Body.answers d.told.length r.body.frames)
    (hdropped : d.dropped.frames = r.body.frames.drop d.told.length) (key : String) :
    settings.own key r d = Capture.writesOver (some (copyOf settings key r)) d.told
      d.dropped.isEnded := by
  have hended : d.dropped.isEnded = true → r.body.frames.drop d.told.length = [] :=
    fun hended ↦ by rw [← hdropped, Flow.frames_eq_nil_of_isEnded hended]
  rw [htold, Capture.writesOver_answers (Nat.zero_le _) hended, CacheSettings.own, ← htold]
  refine ite_congr (propext ?_) (fun _ ↦ rfl) (fun _ ↦ rfl)
  rw [CacheSettings.Storable, copyOf, List.length_nil, Nat.zero_add]
  constructor
  · rintro ⟨⟨-, -, -, hlength⟩, hwhole⟩
    exact ⟨hlength, hwhole⟩
  · rintro ⟨hlength, hwhole⟩
    exact ⟨⟨hok, hcookie, hlower, hlength⟩, hwhole⟩

/-- A response that may not be stored is delivered as it is, and nothing is written for it. -/
theorem storesOnce_of_not_storable {settings : CacheSettings} {r : Response} {w w' : World (Kept σ)}
    {skips : Nat} (hstorable : ¬ settings.Storable r) (hle : skips ≤ 1)
    (hwrites : w'.store.writes = w.store.writes) (hattempts : w'.attempts = w.attempts)
    (hskipped : w'.results .skipped = w.results .skipped + skips) (key : String) (ns : List Nat) :
    settings.StoresOnce key r (r.body.flow.deliver ns w) (r.body.flow.deliver ns w') := by
  obtain ⟨told, rest, writes, given, hasks, hrest⟩ :=
    Flow.asks_commits (σ := σ) (Flow.sound_flow r.body) ns
  obtain ⟨dropped, hdiscard, -⟩ := Flow.discard_commits (σ := σ) hrest
  obtain ⟨htold, hleft, hread, hdone, htried, hgiven⟩ := Flow.deliver_spec hasks hdiscard w
  obtain ⟨htold', hleft', hread', hdone', htried', hgiven'⟩ := Flow.deliver_spec hasks hdiscard w'
  have hown : settings.own key r (r.body.flow.deliver ns w) = [] := if_neg fun h ↦ hstorable h.1
  constructor
  case told_eq => exact .inl (htold.trans htold'.symm)
  case dropped_eq => exact .inl (hleft'.trans hleft.symm)
  case writes_perm => rw [hown, hdone', hdone, hwrites, List.append_nil]
  case writes_read => exact fun _ ↦ by rw [hown, hread', hread, hwrites, List.append_nil]
  case attempts_eq => rw [hown, htried', htried, hattempts, List.length_nil, Nat.add_zero]
  case skipped_eq =>
    refine ⟨skips, ?_, ?_⟩
    · rw [hgiven', hgiven, hskipped, Nat.add_right_comm]
    · rwa [hown, List.length_nil, Nat.zero_add]

/-- A response that leaves with an empty copy is delivered as it is, and the course of the copy is
what is written for it. -/
theorem exists_storesOnce_of_copied {settings : CacheSettings} {r : Response}
    {w w' : World (Kept σ)} (hok : r.status = .ok)
    (hcookie : r.headers.contains Entry.setCookie = false)
    (hlower : r.body.hint.lower ≤ settings.maxEntryBytes)
    (hwrites : w'.store.writes = w.store.writes) (hattempts : w'.attempts = w.attempts)
    (hskipped : w'.results .skipped = w.results .skipped) (key : String) (ns : List Nat) :
    ∃ ms, ms.Sublist ns ∧ settings.StoresOnce key r (r.body.flow.deliver ms w)
      ((Body.copied r.body (some (copyOf settings key r))).flow.deliver ns w') := by
  have hsound : (Flow.copied r.body.flow (.growing (copyOf settings key r))).Sound :=
    Flow.sound_copied_of_untold_eq_nil (Flow.sound_flow r.body) rfl
  obtain ⟨rec, hserved⟩ := Flow.exists_served (σ := σ) hsound ns
  obtain ⟨dropped, hdiscard, hparting⟩ := Flow.discard_commits (σ := σ) hserved.sound.1
  obtain ⟨htold, hrest, hread, hdone, htried, hgiven⟩ :=
    Flow.deliver_spec hserved.behind hdiscard w
  obtain ⟨hheard, hleft, hread', hdone', htried', hgiven'⟩ :=
    Flow.deliver_spec hserved.through (hparting rec.copy) w'
  -- the body behind answers its frames in their order, so what it told decides
  have hown := own_eq_writesOver (d := r.body.flow.deliver rec.passed w) hok hcookie hlower
    (by rw [htold, ← Flow.frames_flow]; exact hserved.told_eq)
    (by rw [htold, hrest, ← Flow.frames_flow]; exact hserved.frames_eq) key
  rw [htold, hrest] at hown
  have honce := Capture.length_writesOver_add_skips_le (some (copyOf settings key r)) rec.told
    rec.rest.isEnded
  rw [← hown] at honce
  have hall := hserved.writes_of_growing dropped
  rw [← hown] at hall
  have hflow : (Body.copied r.body (some (copyOf settings key r))).flow
      = .copied r.body.flow (.growing (copyOf settings key r)) := rfl
  rw [hflow]
  refine ⟨rec.passed, hserved.passed_sublist, ?_⟩
  constructor
  case told_eq =>
    rw [htold, hrest, hheard, hleft]
    exact hserved.told_of_growing.imp_right fun ⟨huntold, c, hcopy⟩ ↦ ⟨huntold, c, by rw [hcopy]⟩
  case dropped_eq => exact .inr ⟨rec.copy, by rw [hleft, hrest]⟩
  case writes_perm =>
    rw [hdone', hdone, hwrites, List.append_assoc w.store.writes]
    exact hall.append_left _
  case writes_read =>
    intro hend
    rw [hheard] at hend
    rw [hread', hread, hwrites, List.append_assoc, hown]
    exact List.Perm.append_left _ (hserved.writes_of_mem_heard hend)
  case attempts_eq =>
    rw [htried', htried, hattempts, hall.length_eq, List.length_append, Nat.add_assoc]
  case skipped_eq =>
    refine ⟨_, ?_, honce⟩
    rw [hgiven', hgiven, hskipped, Nat.add_assoc]
    rfl

theorem cached_of_lookup?_eq_none {settings : CacheSettings} {next : Service σ}
    {req : Request} {w : World σ} (hget : req.method = .get)
    (hmiss : (lookup? (settings.key req) w).1 = none) :
    cached settings next req w =
      let behind := next req (lookup? (settings.key req) w).2
      capturing settings (settings.key req) behind.1 behind.2 := by
  rw [cached, if_neg fun hne ↦ hne hget]
  rcases hlookup : lookup? (settings.key req) w with ⟨answer, w'⟩
  rw [hlookup] at hmiss
  simp only at hmiss
  subst hmiss
  simp only [bind, StateT.bind, hlookup]
  rfl

theorem cached_of_lookup?_eq_some {settings : CacheSettings} {next : Service σ} {req : Request}
    {w : World σ} {response : Response} (hget : req.method = .get)
    (hhit : (lookup? (settings.key req) w).1 = some response) :
    cached settings next req w = (response, (lookup? (settings.key req) w).2) := by
  rw [cached, if_neg fun hne ↦ hne hget]
  rcases hlookup : lookup? (settings.key req) w with ⟨found, w'⟩
  rw [hlookup] at hhit
  obtain rfl : found = some response := hhit
  simp only [bind, StateT.bind, hlookup]
  rfl

/-- **A response is stored whole and once.** A `GET` that is not answered from the cache is
answered by the service behind, and a client that asks the body any number of times and drops it
then fares as the cache does, which asks the body behind some of these times, except that the
response is stored if it may be stored and was delivered whole to the cache. -/
theorem cached_storesOnce (settings : CacheSettings) (next : Service (Kept σ)) (req : Request)
    (w : World (Kept σ)) (ns : List Nat) (hget : req.method = .get)
    (hmiss : (lookup? (settings.key req) w).1 = none) :
    let behind := next req (lookup? (settings.key req) w).2
    let through := cached settings next req w
    ∃ ms, ms.Sublist ns ∧ settings.StoresOnce (settings.key req) behind.1
      (behind.1.body.flow.deliver ms behind.2) (through.1.body.flow.deliver ns through.2) := by
  intro behind through
  have hthrough : through = capturing settings (settings.key req) behind.1 behind.2 :=
    cached_of_lookup?_eq_none hget hmiss
  rw [hthrough]
  rcases capturing_commits (σ := σ) settings (settings.key req) behind.1 with
    ⟨hcapture, hok, hcookie, hlower⟩ | ⟨skips, hle, hcapture, hstorable⟩
  · rw [hcapture.answer_eq]
    exact exists_storesOnce_of_copied hok hcookie hlower
      (by rw [hcapture.writes_eq, List.append_nil])
      (by rw [hcapture.attempts_eq, List.length_nil, Nat.add_zero])
      (by rw [hcapture.skipped_eq, Nat.add_zero]) _ ns
  · rw [hcapture.answer_eq]
    exact ⟨ns, List.Sublist.refl ns, storesOnce_of_not_storable hstorable hle
      (by rw [hcapture.writes_eq, List.append_nil])
      (by rw [hcapture.attempts_eq, List.length_nil, Nat.add_zero])
      (hcapture.skipped_eq _) _ ns⟩

/-- Three frames of three octets in all, of which at most three are stored. The client waits for the
second frame and drops the body after the last one, before it is told the end, and the body has
announced its end. -/
theorem cached_storesOnce_untilLastFrame :
    let settings : CacheSettings := ⟨nanosPerSec, "cache:", 3⟩
    let req : Request := ⟨.get, ⟨"/x", none⟩, [], none, none, none, none⟩
    let r : Response :=
      ⟨.ok, [], .framed [.data (utf8 "ab"), .trailers [], .data (utf8 "c")] ⟨0, none⟩ true⟩
    let next : Service (Kept MemoryStore) := fun _ ↦ pure r
    let w := World.start ⟨MemoryStore.new 0, []⟩ 0
    let behind := next req (lookup? (settings.key req) w).2
    let through := cached settings next req w
    let ns := [1, 0, 1, 1]
    req.method = .get ∧ (lookup? (settings.key req) w).1 = none ∧
      (∃ ms, ms.Sublist ns ∧ settings.StoresOnce (settings.key req) behind.1
        (behind.1.body.flow.deliver ms behind.2) (through.1.body.flow.deliver ns through.2)) ∧
      (through.1.body.flow.deliver ns through.2).done.store.writes
        = [r.written (settings.key req) settings.ttl] := by
  intro settings req r next w behind through ns
  refine ⟨rfl, rfl, cached_storesOnce settings next req w ns rfl rfl, ?_⟩
  rfl

/-- A client that drops a body while its copy is being written has not been told the end, and the
body has not announced it, but the copy is stored. And where a cache stands behind another one, what
one of them skips the other one may store. -/
theorem stored_of_not_told :
    let settings (space : String) (limit : Nat) : CacheSettings := ⟨nanosPerSec, space, limit⟩
    let req : Request := ⟨.get, ⟨"/x", none⟩, [], none, none, none, none⟩
    let r : Response := ⟨.ok, [], .framed [.data (utf8 "ab")] ⟨0, none⟩ false⟩
    let next : Service (Kept MemoryStore) := fun _ ↦ pure r
    let w := World.start ⟨MemoryStore.new 0, []⟩ 0
    let once := cached (settings "cache:" 2) next req w
    let left := once.1.body.flow.deliver [1, 1] once.2
    let twice := cached (settings "cache:" 2) (cached (settings "inner:" 1) next) req w
    let whole := twice.1.body.flow.deliver [1, 2] twice.2
    (none ∉ left.told ∧ (∃ rest copy, left.dropped = .copied rest copy ∧ rest.isEnded = false) ∧
      left.done.store.writes.length = 1) ∧
    (none ∈ whole.told ∧ whole.done.results .stored = 1 ∧ whole.done.results .skipped = 1) := by
  intro settings req r next w once left twice whole
  have hleft : left.told = [some (.data (utf8 "ab"))] := rfl
  have hwhole : whole.told = [some (.data (utf8 "ab")), none] := rfl
  refine ⟨⟨?_, ⟨_, _, rfl, rfl⟩, by decide +kernel⟩, ?_, by decide +kernel, by decide +kernel⟩
  · rw [hleft]
    simp
  · rw [hwhole]
    simp

end Service

end Gatehouse
