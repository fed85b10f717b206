import Mathlib.Data.List.Induction
import Gatehouse.Proofs.Cache.History
import Gatehouse.Proofs.Site.Aside

/-!
# Requests that overlap

A request that the cache cannot answer touches the store twice: when it is looked up, and when its
body has ended and the copy is written. Between the two its handler runs and its body is read, frame
by frame, for as long as its client likes. `Overlap` is a state of any number of such requests, and
its steps are those of all of them in any order, with time passing and keys being deleted in
between. Each step is what the cache does at that point; put one after another without a pause, the
steps of a request are the services again: `step_of_hit`, `run_of_miss`, `run_of_poll`,
`run_of_drop`.

The copy of a body that is still under way when keys are deleted is written afterwards, and then it
is served: `not_servesFresh_purgedBehind`. So a deletion does not reach what handlers have made
before it, but what has been written, and **`hit_written_since`** says that it reaches all of that.
The invariant is `Sound`: what is live under a key is what was written last, and not deleted since.
-/

namespace Gatehouse

/-- The response that is served once the copy is written. -/
def Cache.Capture.answer (c : Cache.Capture) : Response :=
  .ofBytes c.status (Cache.Entry.replayed c.headers) c.copied

theorem Cache.Capture.replayed?_entry (c : Cache.Capture) (expires : Instant) :
    Service.replayed? (some ⟨.value c.entry.encode, expires⟩) = some c.answer := by
  simp only [Service.replayed?, Option.bind_some, Held.octets, entry,
    Cache.Entry.restore_encode_capture]
  rfl

/-! ## Requests under way -/

/-- How far a request to a cache has come. -/
inductive Overlap.Phase where
  /-- The cache has no answer, and the handler has not run. -/
  | missed (settings : CacheSettings) (key : String)
  | handled (settings : CacheSettings) (key : String) (r : Response)
  /-- The body is read, and a copy grows beside it. -/
  | copying (inner : Body) (copy : Cache.Capture)
  /-- The body has ended, and the copy is about to be written. -/
  | ended (copy : Cache.Capture)
  /-- Nothing will be written any more. -/
  | settled

/-- Something that matters to those who ask the cache. The place is that of a request among all that
were looked up. -/
inductive Overlap.Happening where
  | handled (place : Nat)
  | written (place : Nat) (key : String) (r : Response)
  | purged (pattern : String)
  | hit (key : String) (r : Response)
  deriving DecidableEq

/-- A state of requests that overlap. -/
structure Overlap where
  world : World MemoryStore
  flights : List Overlap.Phase
  log : List Overlap.Happening

namespace Overlap

/-- A step of some request. -/
inductive Step where
  | wait (d : Duration)
  /-- A request for a representation comes and is looked up. -/
  | look (settings : CacheSettings) (req : Request)
  /-- The handler of a request runs. -/
  | handle (place : Nat) (r : Response) (hidle : r.body.IsIdle)
  /-- The response passes the cache on its way back. -/
  | forward (place : Nat)
  /-- The body is asked for a frame. -/
  | poll (place : Nat)
  | drop (place : Nat)
  | write (place : Nat)
  /-- After some request, the keys of a pattern are deleted. -/
  | purge (pattern : String)

namespace Phase

/-- The phase of a request whose body has not ended. -/
def ofBody : Body → Phase
  | .copied inner (some c) => copying inner c
  | _ => settled

/-- Ask for a frame. -/
def poll : Phase → Run MemoryStore Phase
  | copying inner c => do
    let (frame, rest) ← inner.poll
    match frame with
    | some (.data data) => return ofBody (.copied rest (← c.record data))
    | some (.trailers _) => return copying rest c
    | some (.failure _) => return settled
    | none => return ended c
  | phase => return phase

/-- Drop a request. What has ended is written all the same. -/
def drop : Phase → Phase
  | copying inner c => if inner.isEnded then ended c else settled
  | ended c => ended c
  | _ => settled

end Phase

/-- Requests overlap from now on. -/
def start (now : Instant) : Overlap := ⟨.start (.new now) now, [], []⟩

def step (m : Overlap) : Step → Overlap
  | .wait d => { m with world := (Run.advance d m.world).2 }
  | .look settings req =>
    match Service.lookup? (settings.key req) m.world with
    | (some r, w) => ⟨w, m.flights ++ [.settled], m.log ++ [.hit (settings.key req) r]⟩
    | (none, w) => ⟨w, m.flights ++ [.missed settings (settings.key req)], m.log⟩
  | .handle place r _ =>
    match m.flights[place]? with
    | some (.missed settings key) =>
      ⟨m.world, m.flights.set place (.handled settings key r), m.log ++ [.handled place]⟩
    | _ => m
  | .forward place =>
    match m.flights[place]? with
    | some (.handled settings key r) =>
      let answer := Service.capturing settings key r m.world
      ⟨answer.2, m.flights.set place (.ofBody answer.1.body), m.log⟩
    | _ => m
  | .poll place =>
    match m.flights[place]? with
    | some phase =>
      let polled := phase.poll m.world
      ⟨polled.2, m.flights.set place polled.1, m.log⟩
    | none => m
  | .drop place => { m with flights := m.flights.modify place Phase.drop }
  | .write place =>
    match m.flights[place]? with
    | some (.ended c) =>
      ⟨(c.finish m.world).2, m.flights.set place .settled,
        m.log ++ [.written place c.key c.answer]⟩
    | _ => m
  | .purge pattern =>
    ⟨(Service.invalidation pattern m.world).2, m.flights, m.log ++ [.purged pattern]⟩

def run (m : Overlap) (steps : List Step) : Overlap := steps.foldl step m

/-! ## One request after another -/

theorem Phase.ofBody_of_isIdle {b : Body} (hb : b.IsIdle) : ofBody b = settled := by
  cases b with
  | full data | framed frames said announced => rfl
  | copied inner copy =>
    obtain ⟨rfl, -⟩ := hb
    rfl

theorem run_append (m : Overlap) (steps steps' : List Step) :
    m.run (steps ++ steps') = (m.run steps).run steps' := List.foldl_append

/-- A request that is in the cache is answered when it is looked up. -/
theorem step_of_hit (m : Overlap) {settings : CacheSettings} {req : Request} {r : Response}
    (hget : req.method = .get) (hhit : (Service.lookup? (settings.key req) m.world).1 = some r)
    (next : Service MemoryStore) :
    Service.cached settings next req m.world = (r, (m.step (.look settings req)).world) := by
  rw [Service.cached_of_lookup?_eq_some hget hhit]
  rcases hlookup : Service.lookup? (settings.key req) m.world with ⟨found, w⟩
  rw [hlookup] at hhit
  obtain rfl : found = some r := hhit
  simp [step, hlookup]

/-- Layers that invalidate delete one after another, the innermost first. -/
theorem run_of_invalidate (m : Overlap) (around : Surroundings) (patterns : List String)
    (r : Response) (req : Request) :
    Service.stacked around (patterns.map .invalidate) (fun _ ↦ pure r) req m.world
        = (r, (m.run (patterns.reverse.map .purge)).world) ∧
      (m.run (patterns.reverse.map .purge)).flights = m.flights := by
  induction patterns with
  | nil => exact ⟨rfl, rfl⟩
  | cons pattern patterns ih =>
    obtain ⟨hinner, hflights⟩ := ih
    have hstacked : Service.stacked around ((pattern :: patterns).map .invalidate)
        (fun _ ↦ pure r) req m.world = Service.invalidating pattern
          (Service.stacked around (patterns.map .invalidate) fun _ ↦ pure r) req m.world := rfl
    rw [hstacked, List.reverse_cons, List.map_append, run_append, Service.invalidating]
    simp only [bind, StateT.bind, hinner]
    exact ⟨rfl, hflights⟩

/-- A request that is not in the cache, and is not interrupted, is answered as by the cache around
its handler, with or without layers in between that invalidate. -/
theorem run_of_miss (m : Overlap) {settings : CacheSettings} {req : Request} {r : Response}
    (hget : req.method = .get) (hmiss : (Service.lookup? (settings.key req) m.world).1 = none)
    (hidle : r.body.IsIdle) (around : Surroundings) (patterns : List String) :
    let answer := Service.cached settings
      (Service.stacked around (patterns.map .invalidate) fun _ ↦ pure r) req m.world
    let m' := m.run (.look settings req :: .handle m.flights.length r hidle ::
      (patterns.reverse.map .purge ++ [.forward m.flights.length]))
    m'.world = answer.2 ∧ m'.flights = m.flights ++ [.ofBody answer.1.body] := by
  intro answer m'
  rcases hlookup : Service.lookup? (settings.key req) m.world with ⟨found, w⟩
  rw [hlookup] at hmiss
  obtain rfl : found = none := hmiss
  let asked : Overlap := ⟨w, m.flights ++ [.handled settings (settings.key req) r],
    m.log ++ [.handled m.flights.length]⟩
  obtain ⟨hpurged, hflights⟩ := run_of_invalidate asked around patterns r req
  have hm' : m' = (asked.run (patterns.reverse.map .purge)).step (.forward m.flights.length) := by
    have hasked : (m.step (.look settings req)).step (.handle m.flights.length r hidle)
        = asked := by
      simp [step, hlookup, asked]
    rw [← hasked]
    simp only [m', run, List.foldl_cons, List.foldl_append, List.foldl_nil]
  have hanswer : answer = Service.capturing settings (settings.key req) r
      (asked.run (patterns.reverse.map .purge)).world := by
    have hnone : (Service.lookup? (settings.key req) m.world).1 = none := by rw [hlookup]
    simp only [answer, Service.cached_of_lookup?_eq_none hget hnone, hlookup, asked] at hpurged ⊢
    rw [hpurged]
  rw [hm', hanswer, step, hflights]
  simp [asked]

/-- Asking a body for a frame, up to the moment when the copy is written. -/
theorem Phase.poll_copying (inner : Body) (c : Cache.Capture) (w : World MemoryStore) :
    let answer := (Body.copied inner (some c)).poll w
    (∃ w', poll (copying inner c) w = (ended c, w') ∧ answer.2 = (c.finish w').2 ∧
      ofBody answer.1.2 = settled) ∨ poll (copying inner c) w = (ofBody answer.1.2, answer.2) := by
  intro answer
  rcases hpoll : inner.poll w with ⟨⟨_ | data | trailers | reason, rest⟩, w'⟩ <;>
    simp only [answer, poll, Body.poll, bind, StateT.bind, hpoll]
  · exact .inl ⟨w', rfl, rfl, rfl⟩
  · exact .inr rfl
  · exact .inr rfl
  · exact .inr rfl

theorem step_write_of_ne (m : Overlap) {place : Nat}
    (h : ∀ c, m.flights[place]? ≠ some (.ended c)) : m.step (.write place) = m := by
  rw [step]
  split
  · exact absurd ‹_› (h _)
  · rfl

theorem Phase.ofBody_ne_ended (b : Body) (c : Cache.Capture) : ofBody b ≠ ended c := by
  unfold ofBody
  split <;> exact nofun

/-- A copy that is written as soon as the body has ended is written by the body. -/
theorem run_of_poll (m : Overlap) {place : Nat} {inner : Body} {c : Cache.Capture}
    (hphase : m.flights[place]? = some (.copying inner c)) :
    let answer := (Body.copied inner (some c)).poll m.world
    let m' := m.run [.poll place, .write place]
    m'.world = answer.2 ∧ m'.flights = m.flights.set place (.ofBody answer.1.2) := by
  intro answer m'
  have hplace : place < m.flights.length := (List.getElem?_eq_some_iff.mp hphase).1
  have hpolled : m.step (.poll place) = ⟨(Phase.poll (.copying inner c) m.world).2,
      m.flights.set place (Phase.poll (.copying inner c) m.world).1, m.log⟩ := by
    rw [step, hphase]
  have hm' : m' = (m.step (.poll place)).step (.write place) := rfl
  rw [hm', hpolled]
  rcases Phase.poll_copying inner c m.world with ⟨w', hpoll, hworld, hbody⟩ | hpoll
  · rw [hpoll]
    simp [step, hplace, answer, hworld, hbody]
  · rw [hpoll, step_write_of_ne]
    · exact ⟨rfl, rfl⟩
    · intro c' heq
      rw [List.getElem?_set_self hplace] at heq
      exact Phase.ofBody_ne_ended _ _ (Option.some.inj heq)

/-- Or when the body is dropped. -/
theorem run_of_drop (m : Overlap) {place : Nat} {inner : Body} {c : Cache.Capture}
    (hidle : inner.IsIdle) (hphase : m.flights[place]? = some (.copying inner c)) :
    let m' := m.run [.drop place, .write place]
    m'.world = ((Body.copied inner (some c)).discard m.world).2 ∧
      m'.flights = m.flights.set place .settled := by
  intro m'
  have hplace : place < m.flights.length := (List.getElem?_eq_some_iff.mp hphase).1
  have hdropped : m.step (.drop place) = ⟨m.world,
      m.flights.set place (if inner.isEnded then .ended c else .settled), m.log⟩ := by
    simp only [step, List.modify_eq_set_getElem?, hphase]
    rfl
  have hdiscarded : ((Body.copied inner (some c)).discard m.world).2
      = if inner.isEnded then (c.finish m.world).2 else m.world := by
    simp only [Body.discard, bind]
    split_ifs
    · exact congrArg Prod.snd (Body.discard_of_isIdle hidle _)
    · exact congrArg Prod.snd (Body.discard_of_isIdle hidle _)
  have hm' : m' = (m.step (.drop place)).step (.write place) := rfl
  rw [hm', hdropped, hdiscarded]
  split_ifs
  · simp [step, hplace]
  · rw [step_write_of_ne]
    · exact ⟨rfl, rfl⟩
    · intro c' heq
      simp [hplace] at heq

/-! ## What is held -/

/-- What the last of some happenings makes of what is held under a key. -/
def keep (key : String) (held : Option (Nat × Response)) : Happening → Option (Nat × Response)
  | .written place key' r => if key' = key then some (place, r) else held
  | .purged pattern => if Glob.isMatch pattern key = true then none else held
  | _ => held

/-- The response that was written last under a key, and the place of its request, unless it was
deleted since. -/
def held? (key : String) (log : List Happening) : Option (Nat × Response) :=
  log.foldl (keep key) none

theorem held?_append_singleton (key : String) (log : List Happening) (x : Happening) :
    held? key (log ++ [x]) = keep key (held? key log) x := by
  rw [held?, List.foldl_append]
  rfl

/-- A deletion leaves nothing of what was held. -/
theorem held?_append_purged {key pattern : String} (hmatch : Glob.isMatch pattern key = true)
    (before between : List Happening) :
    held? key (before ++ .purged pattern :: between) = held? key between := by
  rw [held?, List.foldl_append, List.foldl_cons, keep, if_pos hmatch]
  rfl

/-- What is held was written, and nothing else was written since. -/
theorem exists_written_of_held? {key : String} {log : List Happening} {place : Nat} {r : Response}
    (h : held? key log = some (place, r)) :
    ∃ early late, log = early ++ .written place key r :: late ∧
      ∀ place' r', .written place' key r' ∉ late := by
  induction log using List.reverseRecOn with
  | nil => cases h
  | append_singleton log x ih =>
    rw [held?_append_singleton] at h
    have hearlier (hx : ∀ place' r', x ≠ .written place' key r')
        (h : held? key log = some (place, r)) :
        ∃ early late, log ++ [x] = early ++ .written place key r :: late ∧
          ∀ place' r', .written place' key r' ∉ late := by
      obtain ⟨early, late, rfl, hlate⟩ := ih h
      refine ⟨early, late ++ [x], by simp, fun place' r' hmem ↦ ?_⟩
      rcases List.mem_append.mp hmem with hmem | hmem
      · exact hlate place' r' hmem
      · exact hx place' r' (List.mem_singleton.mp hmem).symm
    cases x with
    | written place' key' r' =>
      rw [keep] at h
      split_ifs at h with hkey
      · obtain ⟨rfl, rfl⟩ := Prod.mk.inj (Option.some.inj h)
        subst hkey
        exact ⟨log, [], rfl, fun _ _ ↦ List.not_mem_nil⟩
      · refine hearlier (fun place'' r'' heq ↦ hkey ?_) h
        cases heq
        rfl
    | purged pattern =>
      rw [keep] at h
      split_ifs at h
      exact hearlier (fun _ _ ↦ nofun) h
    | handled place' | hit key' r' => exact hearlier (fun _ _ ↦ nofun) h

/-! ## The invariant -/

/-- What stands in the log before something happens. -/
def Justified (before : List Happening) : Happening → Prop
  | .hit key r => ∃ place, held? key before = some (place, r)
  | .written place _ _ => .handled place ∈ before
  | _ => True

/-- The handler of a request that may still be written has run, and its body carries no copies but
that of the cache. -/
def Phase.WellFormed (log : List Happening) (place : Nat) : Phase → Prop
  | handled _ _ r => .handled place ∈ log ∧ r.body.IsIdle
  | copying inner _ => .handled place ∈ log ∧ inner.IsIdle
  | ended _ => .handled place ∈ log
  | missed _ _ => True
  | settled => True

/-- All requests are as the log has it. -/
def WellFormed (flights : List Phase) (log : List Happening) : Prop :=
  ∀ (place : Nat) (phase : Phase), flights[place]? = some phase → phase.WellFormed log place

/-- What is live was written last, and what was served was held. -/
structure Sound (m : Overlap) : Prop where
  flights : WellFormed m.flights m.log
  /-- Whatever is live under a key, now or later, replays the response that is held. -/
  live : ∀ key later, m.world.now ≤ later → ∀ e ∈ m.world.store.live? later key,
    ∃ place r, held? key m.log = some (place, r) ∧ Service.replayed? (some e) = some r
  justified : ∀ before x after, m.log = before ++ x :: after → Justified before x

theorem Phase.WellFormed.append {log : List Happening} {place : Nat} {phase : Phase}
    (h : phase.WellFormed log place) (news : List Happening) :
    phase.WellFormed (log ++ news) place := by
  cases phase with
  | handled settings key r => exact ⟨List.mem_append_left _ h.1, h.2⟩
  | copying inner c => exact ⟨List.mem_append_left _ h.1, h.2⟩
  | ended c => exact List.mem_append_left _ h
  | missed settings key => exact trivial
  | settled => exact trivial

theorem justified_append_singleton {log : List Happening} {x : Happening}
    (h : ∀ before x after, log = before ++ x :: after → Justified before x)
    (hx : Justified log x) :
    ∀ before y after, log ++ [x] = before ++ y :: after → Justified before y := by
  intro before y after heq
  rcases List.eq_nil_or_concat after with rfl | ⟨after, z, rfl⟩
  · obtain ⟨rfl, hxy⟩ := List.append_inj' heq rfl
    cases hxy
    exact hx
  · rw [List.concat_eq_append, ← List.cons_append, ← List.append_assoc] at heq
    exact h before y after (List.append_inj' heq rfl).1

/-- Aside, as far as requests to a cache are concerned: nothing is written and nothing deleted. -/
def untouched : Aside.Scope := ⟨unknownClient, fun _ ↦ False, fun _ ↦ False⟩

namespace Phase.WellFormed

variable {log : List Happening} {place : Nat} {phase : Phase}

/-- Passing the cache on its way back, a response leaves the store alone. -/
theorem capturing {settings : CacheSettings} {key : String} {r : Response}
    (h : (handled settings key r).WellFormed log place) :
    (Service.capturing settings key r : Run MemoryStore Response).StaysAside untouched fun r ↦
      (ofBody r.body).WellFormed log place := by
  have hsettled : (ofBody r.body).WellFormed log place := by
    rw [ofBody_of_isIdle h.2]
    exact trivial
  rw [Service.capturing]
  split_ifs
  · exact Run.aside_pure hsettled
  · exact (Run.aside_count _).bind fun _ _ ↦ Run.aside_pure hsettled
  · exact (Run.aside_count _).bind fun _ _ ↦ Run.aside_pure hsettled
  · exact Run.aside_pure h

theorem poll (h : phase.WellFormed log place) :
    phase.poll.StaysAside untouched fun phase ↦ phase.WellFormed log place := by
  cases phase with
  | copying inner c =>
    intro w
    obtain ⟨hhandled, hidle⟩ := h
    obtain ⟨rest, hrest, -, hpoll⟩ := Body.poll_of_isIdle (σ := MemoryStore) hidle
    rw [Phase.poll]
    simp only [bind, StateT.bind, hpoll]
    rcases inner.frames.head? with _ | data | trailers | reason
    · exact ⟨.refl, hhandled⟩
    · refine ((Cache.Capture.aside_record c data).bind fun copy _ ↦ Run.aside_pure ?_) w
      cases copy with
      | none => exact trivial
      | some c' => exact ⟨hhandled, hrest⟩
    · exact ⟨.refl, hhandled, hrest⟩
    · exact ⟨.refl, trivial⟩
  | missed settings key | handled settings key r | ended c | settled => exact Run.aside_pure h

theorem drop (h : phase.WellFormed log place) : phase.drop.WellFormed log place := by
  cases phase with
  | copying inner c =>
    rw [Phase.drop]
    split_ifs
    · exact h.1
    · exact trivial
  | ended c => exact h
  | missed settings key | handled settings key r | settled => exact trivial

end Phase.WellFormed

theorem live?_of_aside {w w' : World MemoryStore} (h : Aside untouched w w') :
    w'.now = w.now ∧ ∀ key later, w.now ≤ later →
      w'.store.live? later key = w.store.live? later key := by
  obtain ⟨hnow, notes, hnotes, hlive⟩ := h.live?_eq
  obtain ⟨notes', hnotes'⟩ := h.exists_notes
  obtain rfl := List.append_cancel_left (hnotes.symm.trans hnotes'.journal_eq)
  have hdeleted : notes.deleted = [] := List.eq_nil_iff_forall_not_mem.mpr hnotes'.purges
  exact ⟨hnow, fun key ↦ hlive key id (Journal.not_purges_of_deleted_eq_nil hdeleted key)⟩

namespace WellFormed

variable {flights : List Phase} {log : List Happening} {place : Nat} {phase : Phase}

theorem set (h : WellFormed flights log) (hphase : phase.WellFormed log place) :
    WellFormed (flights.set place phase) log := by
  intro place' phase' hphase'
  rw [List.getElem?_set] at hphase'
  split_ifs at hphase' with hplace hlt
  · obtain rfl := Option.some.inj hphase'
    exact hplace ▸ hphase
  · exact h place' phase' hphase'

theorem append_singleton (h : WellFormed flights log)
    (hphase : phase.WellFormed log flights.length) : WellFormed (flights ++ [phase]) log := by
  intro place' phase' hphase'
  rcases Nat.lt_trichotomy place' flights.length with hlt | rfl | hgt
  · rw [List.getElem?_append_left hlt] at hphase'
    exact h place' phase' hphase'
  · rw [List.getElem?_concat_length] at hphase'
    exact Option.some.inj hphase' ▸ hphase
  · have hnone : (flights ++ [phase])[place']? = none :=
      List.getElem?_eq_none (by simpa using Nat.succ_le_of_lt hgt)
    rw [hnone] at hphase'
    cases hphase'

end WellFormed

namespace Sound

variable {m : Overlap} {w : World MemoryStore} {flights : List Phase} {place : Nat}

theorem start (now : Instant) : Sound (start now) where
  flights _ _ h := by cases h
  live _ _ _ _ h := by cases h
  justified before x after h := by cases before <;> cases h

/-- Nothing happens, but that some requests come a bit further and time passes. -/
theorem pass (h : Sound m) (hnow : m.world.now ≤ w.now)
    (hlive : ∀ key later, w.now ≤ later →
      w.store.live? later key = m.world.store.live? later key)
    (hflights : WellFormed flights m.log) : Sound ⟨w, flights, m.log⟩ where
  flights := hflights
  live key later hlater e he := by
    rw [hlive key later hlater] at he
    exact h.live key later (Nat.le_trans hnow hlater) e he
  justified := h.justified

theorem aside (h : Sound m) (haside : Aside untouched m.world w)
    (hflights : WellFormed flights m.log) : Sound ⟨w, flights, m.log⟩ := by
  obtain ⟨hnow, hlive⟩ := live?_of_aside haside
  exact h.pass (Nat.le_of_eq hnow.symm) (fun key later hlater ↦ hlive key later (hnow ▸ hlater))
    hflights

/-- Something happens that leaves what is held. -/
theorem note (h : Sound m) {x : Happening} (hx : Justified m.log x)
    (hkeep : ∀ key held, keep key held x = held) : Sound ⟨m.world, m.flights, m.log ++ [x]⟩ where
  flights place phase hphase := (h.flights place phase hphase).append [x]
  live key later hlater e he := by
    rw [held?_append_singleton, hkeep]
    exact h.live key later hlater e he
  justified := justified_append_singleton h.justified hx

theorem look (h : Sound m) (settings : CacheSettings) (req : Request) :
    Sound (m.step (.look settings req)) := by
  have hspec := (Service.lookup?_spec settings (settings.key req) m.world).1
  have haside : Aside untouched m.world (Service.lookup? (settings.key req) m.world).2 :=
    (Service.aside_lookup? (settings.key req) m.world).1
  rw [step]
  rcases hlookup : Service.lookup? (settings.key req) m.world with ⟨_ | r, w⟩ <;>
    rw [hlookup] at hspec haside
  · exact h.aside haside (h.flights.append_singleton trivial)
  · have hjustified : Justified m.log (.hit (settings.key req) r) := by
      obtain ⟨e, he, -⟩ := Option.bind_eq_some_iff.mp hspec.symm
      obtain ⟨place, r', hheld, hreplayed⟩ := h.live _ _ (Nat.le_refl _) e he
      rw [he, hreplayed] at hspec
      cases hspec
      exact ⟨place, hheld⟩
    have hnoted := h.note hjustified fun _ _ ↦ rfl
    exact hnoted.aside haside (hnoted.flights.append_singleton trivial)

theorem handle (h : Sound m) (place : Nat) {r : Response} (hidle : r.body.IsIdle) :
    Sound (m.step (.handle place r hidle)) := by
  rw [step]
  split
  · have hnoted := h.note (x := .handled place) trivial fun _ _ ↦ rfl
    refine hnoted.pass (Nat.le_refl _) (fun _ _ _ ↦ rfl) (WellFormed.set hnoted.flights ?_)
    exact ⟨List.mem_append_right _ (List.mem_singleton.mpr rfl), hidle⟩
  · exact h

theorem forward (h : Sound m) (place : Nat) : Sound (m.step (.forward place)) := by
  rw [step]
  split
  · next settings key r hphase =>
    have hwellFormed : Phase.WellFormed m.log place (.handled settings key r) :=
      h.flights place _ hphase
    obtain ⟨haside, hforwarded⟩ := Phase.WellFormed.capturing hwellFormed m.world
    exact h.aside haside (h.flights.set hforwarded)
  · exact h

theorem poll (h : Sound m) (place : Nat) : Sound (m.step (.poll place)) := by
  rw [step]
  split
  · next phase hphase =>
    obtain ⟨haside, hpolled⟩ := (h.flights place _ hphase).poll m.world
    exact h.aside haside (h.flights.set hpolled)
  · exact h

theorem drop (h : Sound m) (place : Nat) : Sound (m.step (.drop place)) := by
  refine h.aside .refl fun place' phase hphase ↦ ?_
  rw [List.getElem?_modify] at hphase
  obtain ⟨phase', hphase', rfl⟩ := Option.map_eq_some_iff.mp hphase
  have hwellFormed := h.flights place' phase' hphase'
  split_ifs
  · exact hwellFormed.drop
  · exact hwellFormed

theorem write (h : Sound m) (place : Nat) : Sound (m.step (.write place)) := by
  rw [step]
  split
  · next c hphase =>
    have hhandled : .handled place ∈ m.log := h.flights place _ hphase
    refine ⟨?_, fun key later hlater e he ↦ ?_, justified_append_singleton h.justified hhandled⟩
    · exact WellFormed.set (fun place' phase hphase ↦ (h.flights place' phase hphase).append _)
        trivial
    · rw [Exchange.finish_apply] at hlater he
      rw [MemoryStore.live?_set _ _ hlater] at he
      rw [held?_append_singleton, keep]
      by_cases hkey : key = c.key
      · rw [if_pos hkey] at he
        obtain ⟨heq, -⟩ := Option.filter_eq_some_iff.mp he
        rw [if_pos hkey.symm, ← Option.some.inj heq]
        exact ⟨place, c.answer, rfl, c.replayed?_entry _⟩
      · rw [if_neg hkey] at he
        rw [if_neg (Ne.symm hkey)]
        exact h.live key later hlater e he
  · exact h

theorem purge (h : Sound m) (pattern : String) : Sound (m.step (.purge pattern)) where
  flights place phase hphase := (h.flights place phase hphase).append _
  live key later hlater e he := by
    have hpurged : (Service.invalidation pattern m.world).2.store.live? later key
        = if Glob.isMatch pattern key = true then none else m.world.store.live? later key :=
      MemoryStore.live?_deleteByPattern m.world.now pattern
    rw [step, hpurged] at he
    rw [step, held?_append_singleton, keep]
    split_ifs at he ⊢
    · cases he
    · exact h.live key later hlater e he
  justified := justified_append_singleton h.justified trivial

theorem step (h : Sound m) (st : Step) : Sound (m.step st) := by
  cases st with
  | wait d =>
    exact h.pass (Nat.le_add_right _ _) (fun _ _ _ ↦ rfl) h.flights
  | look settings req => exact h.look settings req
  | handle place r hidle => exact h.handle place hidle
  | forward place => exact h.forward place
  | poll place => exact h.poll place
  | drop place => exact h.drop place
  | write place => exact h.write place
  | purge pattern => exact h.purge pattern

theorem run (now : Instant) (steps : List Step) : Sound ((Overlap.start now).run steps) := by
  induction steps using List.reverseRecOn with
  | nil => exact .start now
  | append_singleton steps st ih =>
    rw [Overlap.run, List.foldl_append]
    exact ih.step st

end Sound

/-! ## What a deletion reaches -/

/-- Nothing is served that a handler has made before a deletion of its key. -/
def ServesFresh (log : List Happening) : Prop :=
  ∀ before pattern between key r after,
    log = before ++ .purged pattern :: (between ++ .hit key r :: after) →
    Glob.isMatch pattern key = true →
    ∀ place, held? key (before ++ .purged pattern :: between) = some (place, r) →
      .handled place ∉ before

/-- **Nothing is served that was written before a deletion of its key.** However the steps of
requests follow each other, a response that is served after a deletion was written after it, by a
request whose handler has run before it was written, and nothing was written under the key since. -/
theorem hit_written_since (now : Instant) (steps : List Step)
    {before between after : List Happening} {pattern key : String} {r : Response}
    (hlog : ((start now).run steps).log
      = before ++ .purged pattern :: (between ++ .hit key r :: after))
    (hmatch : Glob.isMatch pattern key = true) :
    ∃ place early late, between = early ++ .written place key r :: late ∧
      .handled place ∈ before ++ .purged pattern :: early ∧
      ∀ place' r', .written place' key r' ∉ late := by
  have hsound := Sound.run now steps
  obtain ⟨place, hheld⟩ := hsound.justified (before ++ .purged pattern :: between)
    (.hit key r) after (by simp [hlog])
  rw [held?_append_purged hmatch] at hheld
  obtain ⟨early, late, rfl, hlate⟩ := exists_written_of_held? hheld
  have hhandled := hsound.justified (before ++ .purged pattern :: early)
    (.written place key r) (late ++ .hit key r :: after) (by simp [hlog])
  exact ⟨place, early, late, rfl, hhandled, hlate⟩

/-- The keys of the cache are deleted when the handler of a request has run, and before its body has
been read. Then its response is written, and served to the next request. -/
def purgedBehind (settings : CacheSettings) (req : Request) (r : Response)
    (hidle : r.body.IsIdle) : List Step :=
  [.look settings req, .handle 0 r hidle, .purge (settings.space ++ "*"), .forward 0, .poll 0,
    .poll 0, .write 0, .look settings req]

theorem hit_written_since_purgedBehind :
    let settings : CacheSettings := ⟨Duration.ofSecs 60, "cache:", 1000⟩
    let req : Request := ⟨.get, ⟨"/stats", none⟩, [], none, none, none, none⟩
    let r : Response := .ofBytes .ok [] (utf8 "old")
    let key := settings.key req
    ((start 0).run (purgedBehind settings req r trivial)).log
        = [.handled 0] ++ .purged "cache:*" :: ([.written 0 key r] ++ .hit key r :: []) ∧
      Glob.isMatch "cache:*" key = true ∧
      ∃ place early late, [Happening.written 0 key r] = early ++ .written place key r :: late ∧
        .handled place ∈ [.handled 0] ++ .purged "cache:*" :: early ∧
        ∀ place' r', .written place' key r' ∉ late := by
  intro settings req r key
  have hlog : ((start 0).run (purgedBehind settings req r trivial)).log
      = [.handled 0] ++ .purged "cache:*" :: ([.written 0 key r] ++ .hit key r :: []) := by
    decide +kernel
  have hmatch : Glob.isMatch "cache:*" key = true := by decide +kernel
  exact ⟨hlog, hmatch, hit_written_since 0 (purgedBehind settings req r trivial) hlog hmatch⟩

/-- The handler has run before the deletion, and what it has made is served after it. -/
theorem not_servesFresh_purgedBehind :
    let settings : CacheSettings := ⟨Duration.ofSecs 60, "cache:", 1000⟩
    let req : Request := ⟨.get, ⟨"/stats", none⟩, [], none, none, none, none⟩
    let r : Response := .ofBytes .ok [] (utf8 "old")
    ¬ ServesFresh ((start 0).run (purgedBehind settings req r trivial)).log := by
  intro settings req r hfresh
  have hlog : ((start 0).run (purgedBehind settings req r trivial)).log
      = [.handled 0] ++ .purged "cache:*" ::
        ([.written 0 (settings.key req) r] ++ .hit (settings.key req) r :: []) := by
    decide +kernel
  have hmatch : Glob.isMatch "cache:*" (settings.key req) = true := by decide +kernel
  have hheld : held? (settings.key req)
      ([.handled 0] ++ .purged "cache:*" :: [.written 0 (settings.key req) r]) = some (0, r) := by
    decide +kernel
  exact hfresh _ _ _ _ _ _ hlog hmatch 0 hheld (List.mem_singleton.mpr rfl)

end Overlap

end Gatehouse
