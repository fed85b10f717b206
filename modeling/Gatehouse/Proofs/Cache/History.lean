import Gatehouse.Proofs.Cache.Erasure
import Gatehouse.Proofs.Cache.Replay

/-!
# What a cache answers in the course of time

Requests come one after another, each is answered, and each answer is read to its end before the
next request comes. **`Exchange.history_answers`**: a request to the cache is answered without the
handler exactly if an earlier one with the same key has stored its response, the time of the
response is not over, and no pattern that matches the key was deleted since; and then the answer is
the replay of that response. What is deleted in an exchange is what its layers and its handler want
deleted, `Exchange.Performs`.

The invariant is `Remembers`: what is live under a key of the cache, now or at any later instant, is
what the history says. One exchange at a time is described by `Conducted`, whoever has answered it,
and the history by induction on the exchanges, with an arbitrary past.
-/

namespace Gatehouse

open Service

/-! ## Exchanges -/

/-- A request with all that happens around it. -/
structure Exchange where
  /-- The time that passes before the request. -/
  pause : Duration
  request : Request
  /-- The patterns that are deleted outside of the cache. -/
  outer : List String
  /-- Whether there is a cache on the way to the handler. -/
  cached : Bool
  /-- The patterns that are deleted between the cache and the handler. -/
  inner : List String
  handler : Service MemoryStore
  /-- The time that passes before the end of the body. -/
  wait : Duration

/-- The request is one that the cache may answer. -/
def Exchange.AsksCache (x : Exchange) : Prop := x.cached = true ∧ x.request.method = .get

/-- Which visits an exchange makes, and the keys of which patterns are deleted in it. -/
inductive Exchange.Performs (x : Exchange) : List Visit → List String → Prop
  /-- The handler is not reached, and only the layers outside of the cache delete. -/
  | cache : x.Performs [] x.outer.reverse
  /-- The handler is visited once. What it deletes comes first, then the layers around it delete
  from the inside out. -/
  | handler (visit : Visit) {own : List String} (hown : x.handler.Deletes own) :
    x.Performs [visit] (own ++ (x.inner.reverse ++ x.outer.reverse))

/-- What can be told of an exchange afterwards. -/
structure Served where
  exchange : Exchange
  /-- When the request came. -/
  asked : Instant
  response : Response
  /-- What was read of the body. -/
  reading : Body.Reading
  /-- When the body was read. -/
  finished : Instant
  /-- What was noted meanwhile. -/
  notes : Journal

namespace Served

/-- The request that was answered. -/
abbrev request (r : Served) : Request := r.exchange.request

/-- The request was one that the cache might answer. -/
abbrev AsksCache (r : Served) : Prop := r.exchange.AsksCache

/-- What is held under a key if the response was stored when it had been read. -/
def entry (settings : CacheSettings) (r : Served) : Entry where
  held := .value (Cache.Entry.capture r.response.status r.response.headers r.reading.data).encode
  expires := r.finished + settings.ttl

end Served

namespace Exchange

variable (settings : CacheSettings) (around : Surroundings)

/-- The layers that the request meets. -/
def layers (x : Exchange) : List Layer :=
  x.outer.map .invalidate ++ ((if x.cached then [.cache settings] else []) ++
    x.inner.map .invalidate)

/-- Answer a request, and read the answer to its end. -/
def conduct (x : Exchange) (w : World MemoryStore) : Served × World MemoryStore :=
  let came := (Run.advance x.pause w).2
  let answer := stacked around (x.layers settings) (observed x.handler) x.request came
  let read := answer.1.body.read none (Run.advance x.wait answer.2).2
  (⟨x, came.now, answer.1, read.1, read.2.now, read.2.journal.drop w.journal.length⟩, read.2)

/-- Conduct exchanges one after another. -/
def history : List Exchange → World MemoryStore → List Served × World MemoryStore
  | [], w => ([], w)
  | x :: xs, w =>
    let served := x.conduct settings around w
    let later := history xs served.2
    (served.1 :: later.1, later.2)

end Exchange

/-! ## One exchange -/

/-- What an exchange does, whoever has answered. -/
structure Conducted (settings : CacheSettings) (w : World MemoryStore) (r : Served)
    (w' : World MemoryStore) : Prop where
  asked_ge : w.now ≤ r.asked
  finished_ge : r.asked ≤ r.finished
  now_eq : w'.now = r.finished
  /-- Either the cache has answered, or the handler was visited. -/
  answers :
    (r.AsksCache ∧ r.notes.visits = [] ∧
      replayed? (w.store.live? r.asked (settings.key r.request)) = some r.response) ∨
    ((r.AsksCache → replayed? (w.store.live? r.asked (settings.key r.request)) = none) ∧
      r.notes.visits ≠ [])
  performs : r.exchange.Performs r.notes.visits r.notes.deleted
  /-- A response is stored under its key, if it may be stored and was read to its end. -/
  writes_iff : ∀ req, r.notes.Writes (settings.key req) ↔
    r.AsksCache ∧ r.notes.visits ≠ [] ∧ settings.key r.request = settings.key req ∧
      settings.Storable r.response ∧ r.reading.ending = .finished
  live?_eq : ∀ req later, r.finished ≤ later →
    w'.store.live? later (settings.key req) =
      if r.notes.Writes (settings.key req) then
        (some (r.entry settings)).filter fun e ↦ e.isLive later
      else if r.notes.Purges (settings.key req) then none
      else w.store.live? later (settings.key req)

namespace Exchange

variable {settings : CacheSettings} {x : Exchange}

/-- What the layers have left when they have answered. What they have deleted depends on whether the
cache has hit. -/
inductive Answered (settings : CacheSettings) (x : Exchange) (onHit onMiss : List String)
    (w : World MemoryStore) (response : Response) (w' : World MemoryStore) : Prop where
  /-- The cache has answered. -/
  | cache (hasks : x.AsksCache)
      (hreplayed : replayed? (w.store.live? w.now (settings.key x.request)) = some response)
      (htraces : Traces settings [] onHit w w')
  /-- The handler has answered, and its response is left as it is. -/
  | handler {own : List String} (hmiss : x.AsksCache →
        replayed? (w.store.live? w.now (settings.key x.request)) = none ∧
          ¬ settings.Storable response)
      (hidle : response.body.IsIdle) (hown : x.handler.Deletes own)
      (htraces : Traces settings [⟨x.request.user, x.request.context⟩] (own ++ onMiss) w w')
  /-- The handler has answered, and its response leaves with an empty copy. -/
  | copied (r : Response) {own : List String} (hasks : x.AsksCache)
      (hreplayed : replayed? (w.store.live? w.now (settings.key x.request)) = none)
      (hresponse : response = { r with
        body := .copied r.body (some (copyOf settings (settings.key x.request) r)) })
      (hstorable : settings.Storable r ↔
        (r.body.frames.flatMap Frame.octets).length ≤ settings.maxEntryBytes)
      (hidle : r.body.IsIdle) (hown : x.handler.Deletes own)
      (htraces : Traces settings [⟨x.request.user, x.request.context⟩] (own ++ onMiss) w w')

theorem Answered.trans {onHit onMiss deleted : List String} {w w' w'' : World MemoryStore}
    {response : Response} (h : Answered settings x onHit onMiss w response w')
    (htraces : Traces settings [] deleted w' w'') :
    Answered settings x (onHit ++ deleted) (onMiss ++ deleted) w response w'' := by
  cases h with
  | cache hasks hreplayed h => exact .cache hasks hreplayed (h.trans htraces)
  | handler hmiss hidle hown h =>
    refine .handler hmiss hidle hown ?_
    rw [← List.append_assoc]
    exact h.trans htraces
  | copied r hasks hreplayed hresponse hstorable hidle hown h =>
    refine .copied r hasks hreplayed hresponse hstorable hidle hown ?_
    rw [← List.append_assoc]
    exact h.trans htraces

theorem answered_within (around : Surroundings) (hx : Apart settings x.handler)
    (w : World MemoryStore) :
    let next := stacked around (x.inner.map .invalidate) (observed x.handler)
    let answer := stacked around (if x.cached then [.cache settings] else []) next x.request w
    Answered settings x [] x.inner.reverse w answer.1 answer.2 := by
  intro next answer
  have hnext := fun w ↦ hx.stacked_invalidate around x.inner x.request w
  by_cases hasks : x.AsksCache
  · have hanswer : answer = Service.cached settings next x.request w := by
      simp only [answer, if_pos hasks.1]
      rfl
    obtain ⟨hlookup, htraces⟩ :=
      lookup?_spec settings (settings.key x.request) w
    rw [hanswer]
    cases hreplayed : replayed? (w.store.live? w.now (settings.key x.request)) with
    | some response =>
      rw [hreplayed] at hlookup
      rw [cached_of_lookup?_eq_some hasks.2 hlookup]
      exact .cache hasks hreplayed htraces
    | none =>
      rw [hreplayed] at hlookup
      rw [cached_of_lookup?_eq_none hasks.2 hlookup]
      obtain ⟨hidle, own, hown, hvisit⟩ := hnext (lookup? (settings.key x.request) w).2
      rcases capturing_spec settings (settings.key x.request)
        (next x.request (lookup? (settings.key x.request) w).2).1
        (next x.request (lookup? (settings.key x.request) w).2).2 with
        ⟨hcapturing, hstorable⟩ | ⟨hstorable, hsame, hskipped⟩
      · simp only [hcapturing]
        exact .copied _ hasks hreplayed rfl hstorable hidle hown (htraces.trans hvisit)
      · simp only [hsame]
        exact .handler (fun _ ↦ ⟨hreplayed, hstorable⟩) hidle hown
          ((htraces.trans hvisit).trans_nil hskipped)
  · have hanswer : answer = next x.request w := by
      simp only [answer]
      cases hcached : x.cached with
      | false => rfl
      | true =>
        have hget : x.request.method ≠ .get := fun hget ↦ hasks ⟨hcached, hget⟩
        exact congrFun (if_pos hget) w
    obtain ⟨hidle, own, hown, hvisit⟩ := hnext w
    rw [hanswer]
    exact .handler (fun h ↦ absurd h hasks) hidle hown hvisit

theorem answered (around : Surroundings) (hx : Apart settings x.handler) (w : World MemoryStore) :
    let answer := stacked around (x.layers settings) (observed x.handler) x.request w
    Answered settings x x.outer.reverse (x.inner.reverse ++ x.outer.reverse) w
      answer.1 answer.2 := by
  intro answer
  have hanswer : answer = stacked around (x.outer.map .invalidate)
      (stacked around (if x.cached then [.cache settings] else [])
        (stacked around (x.inner.map .invalidate) (observed x.handler))) x.request w := by
    simp only [answer, layers, stacked, List.foldr_append]
  obtain ⟨hresponse, htraces⟩ := Service.stacked_invalidate around settings x.outer
    (stacked around (if x.cached then [.cache settings] else [])
      (stacked around (x.inner.map .invalidate) (observed x.handler))) x.request w
  rw [hanswer, hresponse]
  exact (answered_within around hx w).trans htraces

/-- An exchange in which nothing was stored. -/
theorem conducted_of_traces {w w' : World MemoryStore} {r : Served} {visits : List Visit}
    {deleted : List String} (hasked : w.now ≤ r.asked)
    (htraces : Traces settings visits deleted { w with now := r.asked } w')
    (hfinished : w'.now = r.finished) (hnotes : r.notes = w'.journal.drop w.journal.length)
    (hanswers : (r.AsksCache ∧ visits = [] ∧
        replayed? (w.store.live? r.asked (settings.key r.request)) = some r.response) ∨
      ((r.AsksCache → replayed? (w.store.live? r.asked (settings.key r.request)) = none) ∧
        visits ≠ []))
    (hperforms : r.exchange.Performs visits deleted)
    (hunstored : r.AsksCache → visits ≠ [] → settings.Storable r.response →
      r.reading.ending ≠ .finished) : Conducted settings w r w' := by
  obtain ⟨notes, herases, rfl, rfl⟩ := htraces
  have heq : r.notes = notes := by
    rw [hnotes, herases.journal_eq]
    exact List.drop_left
  refine ⟨hasked, hfinished ▸ herases.now_le, hfinished, heq ▸ hanswers, heq ▸ hperforms,
    fun req ↦ ?_, ?_⟩
  · rw [heq]
    refine iff_of_false (herases.not_writes req) ?_
    rintro ⟨hasks, hvisits, -, hstorable, hend⟩
    exact hunstored hasks hvisits hstorable hend
  · intro req later hlater
    rw [heq, if_neg (herases.not_writes req)]
    exact herases.live?_eq req later (hfinished ▸ hlater)

/-- What finishing a copy leaves behind. -/
theorem finish_apply (c : Cache.Capture) (w : World MemoryStore) : (c.finish w).2 =
    { w with
      store := w.store.set w.now c.key c.entry.encode c.ttl
      journal := w.journal ++ [.call ⟨.set, c.key⟩, .metric (.cacheStore .stored)] } := by
  simp [Cache.Capture.finish, bind, StateT.bind, Run.set, Run.call, CacheStore.set, Run.count,
    Run.note]

/-- An exchange whose response was stored. -/
theorem conducted_of_finish {w w' : World MemoryStore} {r : Served} {visit : Visit}
    {deleted : List String} {c : Cache.Capture} (hasked : w.now ≤ r.asked)
    (htraces : Traces settings [visit] deleted { w with now := r.asked } w')
    (hfinished : w'.now = r.finished)
    (hnotes : r.notes = (c.finish w').2.journal.drop w.journal.length)
    (hasks : r.AsksCache)
    (hmiss : replayed? (w.store.live? r.asked (settings.key r.request)) = none)
    (hperforms : r.exchange.Performs [visit] deleted)
    (hstorable : settings.Storable r.response) (hend : r.reading.ending = .finished)
    (hkey : c.key = settings.key r.request) (httl : c.ttl = settings.ttl)
    (hentry : c.entry = Cache.Entry.capture r.response.status r.response.headers r.reading.data) :
    Conducted settings w r (c.finish w').2 := by
  obtain ⟨notes, herases, hvisits, rfl⟩ := htraces
  have heq : r.notes = notes ++ [.call ⟨.set, c.key⟩, .metric (.cacheStore .stored)] := by
    rw [hnotes, finish_apply, herases.journal_eq, List.append_assoc]
    exact List.drop_left
  have hwrites : ∀ req, r.notes.Writes (settings.key req)
      ↔ settings.key req = settings.key r.request := fun req ↦ by
    have hlast : Journal.Writes [.call ⟨.set, c.key⟩, .metric (.cacheStore .stored)]
        (settings.key req) ↔ settings.key req = c.key := by simp [Journal.Writes, Journal.calls]
    rw [heq, Journal.writes_append, hlast, hkey]
    exact or_iff_right (herases.not_writes req)
  have hdeleted : r.notes.deleted = notes.deleted := by
    rw [heq, Journal.deleted_append]
    exact List.append_nil _
  have hvisited : r.notes.visits = [visit] := by
    rw [heq, Journal.visits_append, hvisits]
    rfl
  have hne : r.notes.visits ≠ [] := by
    rw [hvisited]
    exact List.cons_ne_nil visit []
  refine ⟨hasked, hfinished ▸ herases.now_le, hfinished, .inr ⟨fun _ ↦ hmiss, hne⟩,
    hdeleted ▸ hvisited ▸ hperforms, fun req ↦ ?_, fun req later hlater ↦ ?_⟩
  · rw [hwrites]
    exact ⟨fun h ↦ ⟨hasks, hne, h.symm, hstorable, hend⟩, fun h ↦ h.2.2.1.symm⟩
  · have hle : w'.now ≤ later := hfinished ▸ hlater
    have hheld : r.entry settings = ⟨.value c.entry.encode, w'.now + c.ttl⟩ := by
      rw [Served.entry, hentry, httl, hfinished]
    rw [finish_apply, MemoryStore.live?_set _ _ hle, hkey, hheld]
    simp only [hwrites, Journal.Purges, hdeleted]
    refine ite_congr rfl (fun _ ↦ rfl) fun _ ↦ ?_
    exact herases.live?_eq req later hle

theorem isIdle_of_replayed? {e : Option Entry} {response : Response}
    (h : replayed? e = some response) : response.body.IsIdle := by
  rw [replayed?, Option.bind_eq_some_iff] at h
  obtain ⟨e, -, h⟩ := h
  cases hrestore : Cache.Entry.restore e.held.octets with
  | error err =>
    rw [hrestore] at h
    cases h
  | ok restored =>
    rw [hrestore] at h
    cases h
    exact trivial

/-- An exchange whose response left with an empty copy. -/
theorem conducted_of_copied {w w₁ w₂ : World MemoryStore} {r : Served} {inner : Response}
    {visit : Visit} {deleted : List String} (hasked : w.now ≤ r.asked)
    (htraces : Traces settings [visit] deleted { w with now := r.asked } w₁)
    (hcopy : Body.CopyRead (copyOf settings (settings.key r.request) inner) inner.body.frames w₁ w₂)
    (hfinished : w₂.now = r.finished) (hnotes : r.notes = w₂.journal.drop w.journal.length)
    (hasks : r.AsksCache)
    (hmiss : replayed? (w.store.live? r.asked (settings.key r.request)) = none)
    (hperforms : r.exchange.Performs [visit] deleted)
    (hresponse : r.response = { inner with
      body := .copied inner.body (some (copyOf settings (settings.key r.request) inner)) })
    (hreading : r.reading = .ofFrames inner.body.frames)
    (hstorable : settings.Storable inner ↔
      (inner.body.frames.flatMap Frame.octets).length ≤ settings.maxEntryBytes) :
    Conducted settings w r w₂ := by
  -- a copy has the frames and the announced size of what it goes beside
  have hsame : settings.Storable r.response ↔ settings.Storable inner := by
    rw [hresponse]
    exact Iff.rfl
  have hcompletes : Body.Completes (copyOf settings (settings.key r.request) inner)
      inner.body.frames ↔ r.reading.ending = .finished ∧ settings.Storable r.response := by
    rw [hreading, hsame, hstorable, Body.Completes]
    exact and_congr_right' (by rw [copyOf, List.length_nil, Nat.zero_add])
  by_cases hc : Body.Completes (copyOf settings (settings.key r.request) inner) inner.body.frames
  · obtain ⟨hend, hstored⟩ := hcompletes.mp hc
    have hw₂ := hcopy.finished hc
    subst hw₂
    refine conducted_of_finish hasked htraces ?_ hnotes hasks hmiss hperforms hstored hend rfl rfl
      ?_
    · rw [← hfinished, finish_apply]
    · rw [Cache.Capture.entry, Body.Reading.data, hresponse, hreading,
        Body.Reading.frames_ofFrames hc.1]
      rfl
  · obtain ⟨notes, hskipped, rfl⟩ := hcopy.skipped hc
    have hleft : Traces settings [] [] w₁ { w₁ with journal := w₁.journal ++ notes } := by
      simp only [List.mem_cons, List.not_mem_nil, or_false] at hskipped
      rcases hskipped with rfl | rfl
      · exact traces_note settings _ 0 [] rfl
      · exact traces_note settings _ 0 [.metric (.cacheStore .skipped)] rfl
    exact conducted_of_traces hasked (htraces.trans_nil hleft) hfinished hnotes
      (.inr ⟨fun _ ↦ hmiss, List.cons_ne_nil visit []⟩) hperforms
      fun _ _ hstored hend ↦ hc (hcompletes.mpr ⟨hend, hstored⟩)

theorem conduct_eq {around : Surroundings} {w w₁ w₂ : World MemoryStore} {response : Response}
    {reading : Body.Reading}
    (hrun : stacked around (x.layers settings) (observed x.handler) x.request
      (Run.advance x.pause w).2 = (response, w₁))
    (hread : response.body.read none (Run.advance x.wait w₁).2 = (reading, w₂)) :
    x.conduct settings around w =
      (⟨x, w.now + x.pause, response, reading, w₂.now, w₂.journal.drop w.journal.length⟩,
        w₂) := by
  simp only [conduct, hrun, hread]
  rfl

theorem conducted (around : Surroundings) (hx : Apart settings x.handler) (w : World MemoryStore) :
    let served := x.conduct settings around w
    Conducted settings w served.1 served.2 := by
  intro served
  have hanswered := answered around hx (Run.advance x.pause w).2
  rcases hrun : stacked around (x.layers settings) (observed x.handler) x.request
    (Run.advance x.pause w).2 with ⟨response, w₁⟩
  rw [hrun] at hanswered
  have hasked : w.now ≤ w.now + x.pause := Nat.le_add_right _ _
  have hwait : Traces settings [] [] w₁ (Run.advance x.wait w₁).2 := by
    have hpassed := traces_note settings w₁ x.wait [] rfl
    rwa [List.append_nil] at hpassed
  cases hanswered with
  | cache hasks hreplayed htraces =>
    have hread := Body.read_of_isIdle (isIdle_of_replayed? hreplayed) (Run.advance x.wait w₁).2
    rw [show served = _ from conduct_eq hrun hread]
    exact conducted_of_traces hasked (htraces.trans_nil hwait) rfl rfl
      (.inl ⟨hasks, rfl, hreplayed⟩) .cache fun _ hvisits ↦ absurd rfl hvisits
  | handler hmiss hidle hown htraces =>
    have hread := Body.read_of_isIdle hidle (Run.advance x.wait w₁).2
    rw [show served = _ from conduct_eq hrun hread]
    exact conducted_of_traces hasked (htraces.trans_nil hwait) rfl rfl
      (.inr ⟨fun hasks ↦ (hmiss hasks).1, List.cons_ne_nil _ []⟩) (.handler _ hown)
      fun hasks _ hstorable ↦ absurd hstorable (hmiss hasks).2
  | copied r hasks hreplayed hresponse hstorable hidle hown htraces =>
    obtain ⟨w₂, hcopy, hread⟩ := Body.read_copied (σ := MemoryStore)
      (c := copyOf settings (settings.key x.request) r) hidle (Nat.zero_le _)
      (Run.advance x.wait w₁).2
    subst hresponse
    rw [show served = _ from conduct_eq hrun hread]
    exact conducted_of_copied hasked (htraces.trans_nil hwait) hcopy rfl rfl hasks hreplayed
      (.handler _ hown) rfl rfl hstorable

end Exchange

/-! ## The past -/

variable {settings : CacheSettings}

/-- At an instant, a past exchange serves a key: it has stored something under the key whose time is
not over, and the key was not deleted since. -/
def Serves (settings : CacheSettings) (past : List Served) (key : String) (now : Instant)
    (s : Served) : Prop :=
  ∃ older between, past = older ++ s :: between ∧ s.notes.Writes key ∧
    now < s.finished + settings.ttl ∧ ∀ r ∈ between, ¬ r.notes.Purges key

theorem Serves.of_le {past : List Served} {key : String} {now later : Instant} {s : Served}
    (h : Serves settings past key later s) (hle : now ≤ later) :
    Serves settings past key now s := by
  obtain ⟨older, between, hpast, hwrites, hlater, hspared⟩ := h
  exact ⟨older, between, hpast, hwrites, Nat.lt_of_le_of_lt hle hlater, hspared⟩

/-- After a further exchange a key is served by this one, or still by an earlier one. -/
theorem serves_append_singleton {past : List Served} {r s : Served} {key : String} {now : Instant} :
    Serves settings (past ++ [r]) key now s ↔
      (s = r ∧ r.notes.Writes key ∧ now < r.finished + settings.ttl) ∨
      (Serves settings past key now s ∧ ¬ r.notes.Purges key) := by
  constructor
  · rintro ⟨older, between, hpast, hwrites, hnow, hspared⟩
    rcases List.eq_nil_or_concat between with rfl | ⟨between, r', rfl⟩
    · obtain ⟨-, hlast⟩ := List.append_inj' hpast rfl
      obtain rfl : r = s := by simpa using hlast
      exact .inl ⟨rfl, hwrites, hnow⟩
    · rw [List.concat_eq_append, ← List.cons_append, ← List.append_assoc] at hpast
      obtain ⟨rfl, hlast⟩ := List.append_inj' hpast rfl
      obtain rfl : r = r' := by simpa using hlast
      rw [List.concat_eq_append] at hspared
      refine .inr ⟨⟨older, between, rfl, hwrites, hnow, fun k hk ↦ ?_⟩, ?_⟩
      · exact hspared k (List.mem_append_left _ hk)
      · exact hspared r (List.mem_append_right _ List.mem_cons_self)
  · rintro (⟨rfl, hwrites, hnow⟩ | ⟨⟨older, between, rfl, hwrites, hnow, hspared⟩, hr⟩)
    · exact ⟨past, [], rfl, hwrites, hnow, fun _ h ↦ (nomatch h)⟩
    · refine ⟨older, between ++ [r], by simp, hwrites, hnow, fun k hk ↦ ?_⟩
      rcases List.mem_append.mp hk with hk | hk
      · exact hspared k hk
      · exact List.mem_singleton.mp hk ▸ hr

/-- What is live under a key of the cache, now or later, is what the past says. -/
def Remembers (settings : CacheSettings) (past : List Served) (w : World MemoryStore) : Prop :=
  ∀ req later, w.now ≤ later → ∀ e, w.store.live? later (settings.key req) = some e ↔
    ∃ s, Serves settings past (settings.key req) later s ∧ s.entry settings = e

theorem remembers_start (now : Instant) :
    Remembers settings [] (World.start (MemoryStore.new now) now) := by
  intro req later _ e
  refine iff_of_false (fun h ↦ ?_) ?_
  · cases h
  · rintro ⟨s, ⟨older, between, hpast, -⟩, -⟩
    cases older <;> cases hpast

/-- The replay of a stored response. -/
theorem replayed?_entry (settings : CacheSettings) (s : Served) : ∃ headers,
    (Cache.Entry.capture s.response.status s.response.headers s.reading.data).replay
      = .ok (s.response.status, headers, s.reading.data) ∧
    replayed? (some (s.entry settings))
      = some (.ofBytes s.response.status headers s.reading.data) := by
  refine ⟨Cache.Entry.replayed s.response.headers, Cache.Entry.replay_capture_eq _ _ _, ?_⟩
  simp only [replayed?, Option.bind_some, Served.entry, Held.octets,
    Cache.Entry.restore_encode_capture]

variable {past : List Served} {r : Served} {w w' : World MemoryStore}

/-- The cache answers exactly if the past serves the key, and then with the replay. -/
theorem Conducted.answers_iff (h : Conducted settings w r w') (hpast : Remembers settings past w) :
    (r.notes.visits = [] ↔
      r.AsksCache ∧ ∃ s, Serves settings past (settings.key r.request) r.asked s) ∧
    (r.AsksCache → ∀ s, Serves settings past (settings.key r.request) r.asked s → ∃ headers,
      (Cache.Entry.capture s.response.status s.response.headers s.reading.data).replay
        = .ok (s.response.status, headers, s.reading.data) ∧
      r.response = .ofBytes s.response.status headers s.reading.data) := by
  have hlive : ∀ s, Serves settings past (settings.key r.request) r.asked s →
      w.store.live? r.asked (settings.key r.request) = some (s.entry settings) := fun s hs ↦
    (hpast r.request r.asked h.asked_ge _).mpr ⟨s, hs, rfl⟩
  rcases h.answers with ⟨hasks, hvisits, hreplayed⟩ | ⟨hmiss, hvisits⟩
  · constructor
    · refine iff_of_true hvisits ⟨hasks, ?_⟩
      rcases hheld : w.store.live? r.asked (settings.key r.request) with _ | e
      · rw [hheld] at hreplayed
        cases hreplayed
      · obtain ⟨s, hs, -⟩ := (hpast r.request r.asked h.asked_ge e).mp hheld
        exact ⟨s, hs⟩
    · intro _ s hs
      obtain ⟨headers, hreplay, hanswer⟩ := replayed?_entry settings s
      rw [hlive s hs, hanswer] at hreplayed
      exact ⟨headers, hreplay, (Option.some.inj hreplayed).symm⟩
  · have hnone : r.AsksCache → ∀ s,
        ¬ Serves settings past (settings.key r.request) r.asked s := fun hasks s hs ↦ by
      obtain ⟨headers, -, hanswer⟩ := replayed?_entry settings s
      have hfound := hmiss hasks
      rw [hlive s hs, hanswer] at hfound
      cases hfound
    constructor
    · exact iff_of_false hvisits fun ⟨hasks, s, hs⟩ ↦ hnone hasks s hs
    · exact fun hasks s hs ↦ absurd hs (hnone hasks s)

/-- What the past says stays right when a further exchange is added to it. -/
theorem Conducted.remembers (h : Conducted settings w r w') (hpast : Remembers settings past w) :
    Remembers settings (past ++ [r]) w' := by
  intro req later hlater e
  rw [h.now_eq] at hlater
  have hle : r.asked ≤ later := Nat.le_trans h.finished_ge hlater
  rw [h.live?_eq req later hlater]
  simp only [serves_append_singleton]
  by_cases hwrites : r.notes.Writes (settings.key req)
  · obtain ⟨hasks, hvisits, hkey, -⟩ := (h.writes_iff req).mp hwrites
    -- nothing in the past serves the key, or the handler would not have been visited
    have hnone : ∀ s, ¬ Serves settings past (settings.key req) later s := fun s hs ↦
      hvisits ((h.answers_iff hpast).1.mpr ⟨hasks, s, hkey ▸ hs.of_le hle⟩)
    rw [if_pos hwrites, Option.filter_eq_some_iff]
    constructor
    · rintro ⟨heq, hlive⟩
      cases heq
      exact ⟨r, .inl ⟨rfl, hwrites, Entry.isLive_iff.mp hlive⟩, rfl⟩
    · rintro ⟨s, ⟨rfl, -, hlive⟩ | ⟨hs, -⟩, rfl⟩
      · exact ⟨rfl, Entry.isLive_iff.mpr hlive⟩
      · exact absurd hs (hnone s)
  · rw [if_neg hwrites]
    by_cases hpurges : r.notes.Purges (settings.key req)
    · rw [if_pos hpurges]
      refine iff_of_false nofun ?_
      rintro ⟨s, ⟨rfl, hwrites', -⟩ | ⟨-, hspared⟩, -⟩
      · exact hwrites hwrites'
      · exact hspared hpurges
    · rw [if_neg hpurges, hpast req later (Nat.le_trans h.asked_ge hle) e]
      refine exists_congr fun s ↦ and_congr_left' ⟨fun hs ↦ .inr ⟨hs, hpurges⟩, ?_⟩
      rintro (⟨-, hwrites', -⟩ | ⟨hs, -⟩)
      · exact absurd hwrites' hwrites
      · exact hs

/-! ## Histories -/

namespace Exchange

/-- Each exchange of a history is conducted in a state that remembers those before it. -/
theorem exists_conducted (around : Surroundings) {xs : List Exchange}
    (hapart : ∀ x ∈ xs, Apart settings x.handler)
    (hpast : Remembers settings past w) {before after : List Served}
    (hhistory : (history settings around xs w).1 = before ++ r :: after) :
    ∃ u u', Remembers settings (past ++ before) u ∧ Conducted settings u r u' := by
  induction xs generalizing past w before with
  | nil => cases before <;> cases hhistory
  | cons x xs ih =>
    have hconducted := conducted around (hapart x List.mem_cons_self) w
    have hcons : (history settings around (x :: xs) w).1
        = (x.conduct settings around w).1 ::
          (history settings around xs (x.conduct settings around w).2).1 := rfl
    rw [hcons] at hhistory
    cases before with
    | nil =>
      obtain ⟨rfl, -⟩ := List.cons.inj hhistory
      exact ⟨w, _, by rwa [List.append_nil], hconducted⟩
    | cons b before =>
      obtain ⟨rfl, hrest⟩ := List.cons.inj hhistory
      rw [List.append_cons]
      exact ih (fun x' hx' ↦ hapart x' (List.mem_cons_of_mem x hx'))
        (hconducted.remembers hpast) hrest

/-- Every exchange of a history is answered, in their order. -/
theorem map_exchange_history (around : Surroundings) (xs : List Exchange)
    (w : World MemoryStore) : (history settings around xs w).1.map Served.exchange = xs := by
  induction xs generalizing w with
  | nil => rfl
  | cons x xs ih => exact congrArg (x :: ·) (ih _)

/-- **The cache answers with what was stored, for as long as it was stored.** -/
theorem history_answers (settings : CacheSettings) (around : Surroundings) (xs : List Exchange)
    (hapart : ∀ x ∈ xs, Apart settings x.handler) (now : Instant) :
    let h := (history settings around xs (.start (.new now) now)).1
    h.map Served.exchange = xs ∧
    (∀ r ∈ h, r.exchange.Performs r.notes.visits r.notes.deleted ∧
      ∀ req, r.notes.Writes (settings.key req) ↔
        r.AsksCache ∧ r.notes.visits ≠ [] ∧ settings.key r.request = settings.key req ∧
          settings.Storable r.response ∧ r.reading.ending = .finished) ∧
    ∀ before r after, h = before ++ r :: after →
      (r.notes.visits = [] ↔
        r.AsksCache ∧ ∃ s, Serves settings before (settings.key r.request) r.asked s) ∧
      (r.AsksCache → ∀ s, Serves settings before (settings.key r.request) r.asked s → ∃ headers,
        (Cache.Entry.capture s.response.status s.response.headers s.reading.data).replay
          = .ok (s.response.status, headers, s.reading.data) ∧
        r.response = .ofBytes s.response.status headers s.reading.data) ∧
      (r.AsksCache → r.notes.visits ≠ [] → settings.Storable r.response →
        r.reading.ending = .finished → ∀ between next rest, after = between ++ next :: rest →
          next.AsksCache → settings.key next.request = settings.key r.request →
          next.asked < r.finished + settings.ttl →
          (∀ k ∈ between, ¬ k.notes.Purges (settings.key r.request)) →
          next.notes.visits = []) := by
  intro h
  have hstep : ∀ before r after, h = before ++ r :: after →
      ∃ u u', Remembers settings before u ∧ Conducted settings u r u' := fun before r after heq ↦
    exists_conducted around hapart (remembers_start now) heq
  refine ⟨map_exchange_history around xs _, ?_, ?_⟩
  · intro r hr
    obtain ⟨before, after, heq⟩ := List.append_of_mem hr
    obtain ⟨u, u', -, hconducted⟩ := hstep before r after heq
    exact ⟨hconducted.performs, hconducted.writes_iff⟩
  · intro before r after heq
    obtain ⟨u, u', hpast, hconducted⟩ := hstep before r after heq
    obtain ⟨hiff, hreplay⟩ := hconducted.answers_iff hpast
    refine ⟨hiff, hreplay, ?_⟩
    rintro hasks hvisits hstorable hend between next rest rfl hnext hkey hlate hspared
    have hwrites := (hconducted.writes_iff r.request).mpr ⟨hasks, hvisits, rfl, hstorable, hend⟩
    obtain ⟨v, v', hpast', hconducted'⟩ :=
      hstep (before ++ r :: between) next rest (by simp [heq])
    refine (hconducted'.answers_iff hpast').1.mpr ⟨hnext, r, before, between, rfl, ?_⟩
    rw [hkey]
    exact ⟨hwrites, hlate, hspared⟩

/-- Of two requests in a row, the second comes before the time of the first response is over. -/
theorem history_answers_twice :
    let settings : CacheSettings := ⟨2, "cache:", 2⟩
    let around : Surroundings := ⟨fun _ _ ↦ .error .expired, fun id ↦ .error (.notFound id), id⟩
    let handler : Service MemoryStore := fun _ ↦ pure (.ofBytes .ok [] [104, 105])
    let x : Exchange :=
      ⟨1, ⟨.get, ⟨"/x", none⟩, [], none, none, none, none⟩, ["other:*"], true, [], handler, 0⟩
    (∀ x' ∈ [x, x], Apart settings x'.handler) ∧
      ∃ first second, (history settings around [x, x] (.start (.new 0) 0)).1 = [first, second] ∧
        first.notes.visits ≠ [] ∧ second.notes.visits = [] := by
  intro settings around handler x
  have hapart : ∀ x' ∈ [x, x], Apart settings x'.handler := by
    intro x' hx'
    obtain rfl : x' = x := by simpa using hx'
    exact ⟨fun _ w ↦ ⟨[], Traces.refl w⟩, fun _ _ ↦ trivial⟩
  let first := x.conduct settings around (.start (.new 0) 0)
  let second := x.conduct settings around first.2
  have hhistory : (history settings around [x, x] (.start (.new 0) 0)).1
      = [first.1, second.1] := rfl
  obtain ⟨-, -, hanswers⟩ := history_answers settings around [x, x] hapart 0
  obtain ⟨hiff, -, hnext⟩ := hanswers [] first.1 [second.1] hhistory
  have hvisits : first.1.notes.visits ≠ [] := by
    rw [ne_eq, hiff]
    rintro ⟨-, s, older, between, hnone, -⟩
    cases older <;> cases hnone
  have hstorable : settings.Storable first.1.response :=
    ⟨rfl, rfl, Nat.le_refl 2, Nat.le_refl 2⟩
  have hsoon : second.1.asked < first.1.finished + settings.ttl := by decide +kernel
  have hend : first.1.reading.ending = .finished := rfl
  have hkey : settings.key second.1.request = settings.key first.1.request := rfl
  have hfirst : first.1.AsksCache := ⟨rfl, rfl⟩
  have hsecond : second.1.AsksCache := ⟨rfl, rfl⟩
  refine ⟨hapart, first.1, second.1, hhistory, hvisits, ?_⟩
  exact hnext hfirst hvisits hstorable hend [] second.1 [] rfl hsecond hkey hsoon
    fun _ hk ↦ (nomatch hk)

end Exchange

end Gatehouse
