import Gatehouse.Proofs.Base64
import Gatehouse.Proofs.Cache.Copying
import Gatehouse.Proofs.Cache.Replay
import Gatehouse.Proofs.Layer.Passage
import Gatehouse.Proofs.Store.Live
import Mathlib.Data.List.Nodup

/-!
# A cache that does not answer is not noticed

Whatever the store holds and however it fails, a client that is not answered from the cache gets
what the service behind gives it. **`Service.cached_failsOpen`** says this of any store: a request
either is answered by a value that can be replayed, and then nothing behind the cache has a part in
it, or the service behind runs once, and its response cannot be told from the one that arrives.

There is one more end. A value can be the record of a response with more header fields than a
message takes, and then there is no answer at all: whoever can write to the store can end the
program. Which fields a message takes is up to the table that holds them, so it is said by a
parameter `fits`, of which nothing is assumed. `Service.not_replayed_exactly` has such a value for
the table as large as it can be, and one that is replayed without a field that it has.

## What can be told of a body

A body with a copy of itself calls the store while it is read, so the same body is asked in a
different state each time, and the store may have failed meanwhile. A client learns the answers and
what is known of the length, `Body.told`, and these must be the same **in whatever states** the two
bodies are asked. They are, because they depend on the body with all copies taken off, `Body.bare`,
and on nothing else: `Body.told_eq`, `Body.read_eq`.
-/

namespace Gatehouse

open Cache

/-! ## Bodies without their copies -/

namespace Body

/-- The body with all copies taken off. -/
def bare : Body → Body
  | copied inner _ => inner.bare
  | b => b

/-- What is left of a body without copies when it was asked for a frame. -/
def asked : Body → Body
  | full _ => full []
  | framed frames said announced => framed frames.tail said announced
  | copied inner _ => inner.asked

theorem hint_bare (b : Body) : b.bare.hint = b.hint := by
  induction b with
  | full | framed => rfl
  | copied inner copy ih => exact ih

theorem frames_bare (b : Body) : b.bare.frames = b.frames := by
  induction b with
  | full | framed => rfl
  | copied inner copy ih => exact ih

theorem asked_bare (b : Body) : b.bare.asked = b.asked := by
  induction b with
  | full | framed => rfl
  | copied inner copy ih => exact ih

variable {σ : Type} [CacheStore σ]

/-- What a body answers, and what is left of it, do not depend on its copies nor on the state. -/
theorem poll_bare (b : Body) (w : World σ) :
    (b.poll w).1.1 = b.frames.head? ∧ (b.poll w).1.2.bare = b.asked := by
  induction b with
  | full data => cases data <;> exact ⟨rfl, rfl⟩
  | framed frames said announced => cases frames <;> exact ⟨rfl, rfl⟩
  | copied inner copy ih =>
    obtain ⟨hanswer, hrest⟩ := ih
    rcases hpoll : inner.poll w with ⟨⟨answer, rest⟩, w'⟩
    rw [hpoll] at hanswer hrest
    rw [frames, asked, ← hanswer, ← hrest]
    rcases answer with _ | _ | _ | _ <;> rcases copy with _ | c <;>
      simp only [poll, bind, StateT.bind, hpoll] <;> exact ⟨rfl, rfl⟩

variable {b b' : Body}

/-- Bodies that are the same without their copies answer the same and stay the same. -/
theorem poll_eq (hbare : b.bare = b'.bare) (w w' : World σ) :
    (b.poll w).1.1 = (b'.poll w').1.1 ∧ (b.poll w).1.2.bare = (b'.poll w').1.2.bare := by
  obtain ⟨hanswer, hrest⟩ := poll_bare b w
  obtain ⟨hanswer', hrest'⟩ := poll_bare b' w'
  refine ⟨?_, ?_⟩
  · rw [hanswer, hanswer', ← frames_bare, hbare, frames_bare]
  · rw [hrest, hrest', ← asked_bare, hbare, asked_bare]

/-- What a client is told that asks a body once in each of the given states: the answer, and what
is known of the length of the rest. -/
def told : List (World σ) → Body → List (Option Frame × SizeHint)
  | [], _ => []
  | w :: ws, b =>
    let r := (b.poll w).1
    (r.1, r.2.hint) :: told ws r.2

/-- Bodies that are the same without their copies tell the same. -/
theorem told_eq (hbare : b.bare = b'.bare) {ws ws' : List (World σ)}
    (hlength : ws.length = ws'.length) : told ws b = told ws' b' := by
  induction ws generalizing ws' b b' with
  | nil =>
    cases ws' with
    | nil => rfl
    | cons w' ws' => cases hlength
  | cons w ws ih =>
    cases ws' with
    | nil => cases hlength
    | cons w' ws' =>
      obtain ⟨hanswer, hrest⟩ := poll_eq hbare w w'
      rw [told, told, hanswer, ← hint_bare (b.poll w).1.2, hrest, hint_bare,
        ih hrest (Nat.succ.inj hlength)]

theorem readFrames_eq (hbare : b.bare = b'.bare) (n : Nat) (w w' : World σ) :
    (readFrames n b w).1.1 = (readFrames n b' w').1.1 := by
  induction n generalizing b b' w w' with
  | zero => rfl
  | succ n ih =>
    obtain ⟨hanswer, hrest⟩ := poll_eq hbare w w'
    rcases hpoll : b.poll w with ⟨⟨answer, rest⟩, v⟩
    rcases hpoll' : b'.poll w' with ⟨⟨answer', rest'⟩, v'⟩
    rw [hpoll, hpoll'] at hanswer hrest
    obtain rfl : answer = answer' := hanswer
    have hread := ih hrest v v'
    rcases answer with _ | d | h | reason
    · simp only [readFrames, bind, StateT.bind, hpoll, hpoll']
      rfl
    · simp only [readFrames, bind, StateT.bind, hpoll, hpoll']
      exact congrArg (fun r : Reading ↦ (⟨.data d :: r.frames, r.ending⟩ : Reading)) hread
    · simp only [readFrames, bind, StateT.bind, hpoll, hpoll']
      exact congrArg (fun r : Reading ↦ (⟨.trailers h :: r.frames, r.ending⟩ : Reading)) hread
    · simp only [readFrames, bind, StateT.bind, hpoll, hpoll']
      rfl

theorem read_eq (hbare : b.bare = b'.bare) (limit : Option Nat) (w w' : World σ) :
    (b.read limit w).1 = (b'.read limit w').1 := by
  have hlength : b.frames.length = b'.frames.length := by
    rw [← frames_bare, hbare, frames_bare]
  have hread := readFrames_eq hbare (limit.getD (b.frames.length + 1)) w w'
  rw [hlength] at hread
  rw [read, read, hlength]
  exact hread

end Body

/-- Two responses of which a client is told the same, in whatever states it asks for their
frames and however far it reads them. -/
structure Response.Alike (σ : Type) [CacheStore σ] (r r' : Response) : Prop where
  status_eq : r.status = r'.status
  headers_eq : r.headers = r'.headers
  hint_eq : r.body.hint = r'.body.hint
  told_eq : ∀ ws ws' : List (World σ), ws.length = ws'.length →
    r.body.told ws = r'.body.told ws'
  read_eq : ∀ limit (w w' : World σ), (r.body.read limit w).1 = (r'.body.read limit w').1

theorem Response.alike_of_bare_eq {σ : Type} [CacheStore σ] {r r' : Response}
    (hstatus : r.status = r'.status) (hheaders : r.headers = r'.headers)
    (hbare : r.body.bare = r'.body.bare) : r.Alike σ r' where
  status_eq := hstatus
  headers_eq := hheaders
  hint_eq := by rw [← Body.hint_bare, hbare, Body.hint_bare]
  told_eq _ _ := Body.told_eq hbare
  read_eq := Body.read_eq hbare

/-! ## Values that can be replayed -/

namespace Cache.Entry

/-- Some octets are the record of a response: its status is one, and its body is in base 64. -/
structure Replayable (raw : Bytes) (e : Entry) (body : Bytes) : Prop where
  decode : decode? raw = some e
  status : 100 ≤ e.status ∧ e.status ≤ 999
  encode : e.body = Base64.standard.encode body

/-- The response that is replayed from a record. -/
def response {raw body : Bytes} {e : Entry} (h : Replayable raw e body) : Response :=
  .ofBytes ⟨e.status, h.status⟩ (e.headers.filterMap replayedField?) body

theorem restore_of_replayable {raw body : Bytes} {e : Entry} (h : Replayable raw e body) :
    restore raw = .ok (⟨e.status, h.status⟩, e.headers.filterMap replayedField?, body) := by
  have hstatus : Http.Status.ofNat? e.status = some ⟨e.status, h.status⟩ := dif_pos h.status
  have hbody : Base64.standard.decode? e.body = some body :=
    (Base64.Variant.decode?_eq_some_iff Base64.Variant.faithful_standard).mpr h.encode
  simp only [restore, h.decode, replay, hstatus, hbody]

theorem exists_restore_eq_error {raw : Bytes} (h : ∀ e body, ¬ Replayable raw e body) :
    ∃ err, restore raw = .error err := by
  rw [restore]
  rcases hdecode : decode? raw with _ | e
  · exact ⟨_, rfl⟩
  simp only [replay]
  rcases hstatus : Http.Status.ofNat? e.status with _ | status
  · exact ⟨_, rfl⟩
  rcases hbody : Base64.standard.decode? e.body with _ | body
  · exact ⟨_, rfl⟩
  have hrange : 100 ≤ e.status ∧ e.status ≤ 999 := by
    rw [Http.Status.ofNat?] at hstatus
    split at hstatus
    · assumption
    · cases hstatus
  exact absurd ⟨hdecode, hrange,
    (Base64.Variant.decode?_eq_some_iff Base64.Variant.faithful_standard).mp hbody⟩ (h e body)

/-! ### With fields that fit -/

variable {fits : Headers → Bool} {raw : Bytes}

theorem restoreWithin?_of_replayable {body : Bytes} {e : Entry} (h : Replayable raw e body) :
    restoreWithin? fits raw =
      if fits (response h).headers then some (restore raw) else none := by
  have hrestore := restore_of_replayable h
  rw [restore, h.decode] at hrestore
  simp only [restoreWithin?, h.decode, replayWithin?, restore, hrestore]
  rfl

theorem restoreWithin?_of_not_replayable (h : ∀ e body, ¬ Replayable raw e body) :
    restoreWithin? fits raw = some (restore raw) := by
  obtain ⟨err, hrestore⟩ := exists_restore_eq_error h
  rw [hrestore]
  rw [restore] at hrestore
  rw [restoreWithin?]
  rcases hdecode : decode? raw with _ | e <;> rw [hdecode] at hrestore
  · cases hrestore
    rfl
  · simp only [replayWithin?, hrestore]

end Cache.Entry

/-! ## Notes -/

namespace World

variable {σ : Type}

/-- The state in which more has been noted. -/
def noted (w : World σ) (notes : Journal) : World σ := { w with journal := w.journal ++ notes }

@[simp]
theorem noted_nil (w : World σ) : w.noted [] = w := by rw [noted, List.append_nil]

@[simp]
theorem noted_noted (w : World σ) (notes notes' : Journal) :
    (w.noted notes).noted notes' = w.noted (notes ++ notes') := by
  rw [noted, noted, noted, List.append_assoc]

@[simp]
theorem visits_noted (w : World σ) (notes : Journal) :
    (w.noted notes).journal.visits = w.journal.visits ++ notes.visits := List.filterMap_append

end World

@[simp]
theorem Run.note_apply {σ : Type} (n : Note) (w : World σ) : Run.note n w = ((), w.noted [n]) := rfl

/-! ## Looking into the cache -/

namespace Service

variable {σ : Type} [CacheStore σ]

/-- What a look into the cache makes of the answer of the store: the response that is replayed, if
there is one, and what is noted. -/
def found (key : String) : Except StoreError (Option Bytes) → Option Response × Journal
  | .error e => (none, [.metric (.cacheLookup .error), .event (.readFailed key e)])
  | .ok none => (none, [.metric (.cacheLookup .miss)])
  | .ok (some raw) =>
    match Entry.restore raw with
    | .error e => (none, [.metric (.cacheLookup .error), .event (.unreadable key e)])
    | .ok (status, headers, body) =>
      (some (.ofBytes status headers body), [.metric (.cacheLookup .hit)])

theorem lookup?_apply (key : String) (w : World σ) :
    lookup? key w = ((found key (Run.get key w).1).1,
      (Run.get key w).2.noted (found key (Run.get key w).1).2) := by
  rcases hget : Run.get key w with ⟨e | _ | raw, w'⟩
  · simp only [lookup?, found, bind, StateT.bind, hget, Run.count, Run.log, Run.note_apply,
      World.noted_noted]
    rfl
  · simp only [lookup?, found, bind, StateT.bind, hget]
    rfl
  · rcases hrestore : Entry.restore raw with err | ⟨status, headers, body⟩
    · simp only [lookup?, found, bind, StateT.bind, hget, hrestore, Run.count, Run.log,
        Run.note_apply, World.noted_noted]
      rfl
    · simp only [lookup?, found, bind, StateT.bind, hget, hrestore]
      rfl

theorem visits_found (key : String) (answer : Except StoreError (Option Bytes)) :
    (found key answer).2.visits = [] := by
  rcases answer with e | _ | raw
  · rfl
  · rfl
  · rw [found]
    rcases Entry.restore raw with err | _ <;> rfl

/-- The response leaves as it is, if need be with a copy beside its body. -/
theorem capturing_apply (settings : CacheSettings) (key : String) (r : Response) (w : World σ) :
    (capturing settings key r w).1.Alike σ r ∧
      ∃ notes ∈ [[], [Note.metric (.cacheStore .skipped)]],
        (capturing settings key r w).2 = w.noted notes := by
  have hsame : r.Alike σ r := Response.alike_of_bare_eq rfl rfl rfl
  rw [capturing]
  split_ifs
  · exact ⟨hsame, [], by simp, w.noted_nil.symm⟩
  · exact ⟨hsame, _, by simp, rfl⟩
  · exact ⟨hsame, _, by simp, rfl⟩
  · exact ⟨Response.alike_of_bare_eq rfl rfl rfl, [], by simp, w.noted_nil.symm⟩

/-! ## The cache fails open -/

/-- A request is answered by a value that the store gives for its key. -/
def Hits (settings : CacheSettings) (req : Request) (w : World σ) : Prop :=
  req.method = .get ∧
    ∃ raw e body, (Run.get (settings.key req) w).1 = .ok (some raw) ∧ Entry.Replayable raw e body

/-- What a cache in front of services comes to for a request in a state, where messages take the
fields that `fits` admits. -/
structure FailsOpen (fits : Headers → Bool) (settings : CacheSettings) (req : Request)
    (w : World σ) : Prop where
  /-- Requests for anything but a representation are passed on, and the store is not asked. -/
  passesOn : req.method ≠ .get → ∀ next,
    cachedWithin? fits settings next req w = some (next req w)
  /-- A value that can be replayed is the response, whatever is behind the cache. Only if its header
  fields do not fit, the program ends. -/
  replays : req.method = .get → ∀ raw e body, (h : Entry.Replayable raw e body) →
    (Run.get (settings.key req) w).1 = .ok (some raw) → ∀ next,
      cachedWithin? fits settings next req w =
        if fits (Entry.response h).headers then
          some (Entry.response h,
            (Run.get (settings.key req) w).2.noted [.metric (.cacheLookup .hit)])
        else none
  /-- With any other value, without one, or with a store that fails, the service behind runs once,
  after the look, and its response goes to the client as it is. -/
  transparent : req.method = .get → ¬ Hits settings req w → ∃ seen : Journal, ∀ next,
    let behind := next req ((Run.get (settings.key req) w).2.noted seen)
    ∃ response, response.Alike σ behind.1 ∧ ∃ skipped ∈ [[], [Note.metric (.cacheStore .skipped)]],
      cachedWithin? fits settings next req w = some (response, behind.2.noted skipped)
  /-- A handler is visited once, unless the request is answered by a value. -/
  visits : ∀ handler : Service σ, (∀ req, (handler req).Quiet) → ∀ response w',
    cachedWithin? fits settings (observed handler) req w = some (response, w') →
      (Hits settings req w → w'.journal.visits = w.journal.visits) ∧
      (¬ Hits settings req w → w'.journal.visits = w.journal.visits ++ [⟨req.user, req.context⟩])

/-- A service behind which keys are deleted gives its response as it is. The deletion is one call of
the store, and that it fails costs a note. -/
structure DeletesBehind (pattern : String) (next : Service σ) (req : Request) (w : World σ) :
    Prop where
  response_eq : (invalidating pattern next req w).1 = (next req w).1
  world_eq : ∃ notes : Journal, notes.calls = [] ∧ notes.visits = [] ∧
    (invalidating pattern next req w).2
      = (Run.deleteByPattern pattern (next req w).2).2.noted notes

theorem found_of_replayable {raw body : Bytes} {e : Cache.Entry} (h : Entry.Replayable raw e body)
    (key : String) :
    found key (.ok (some raw)) = (some (Entry.response h), [.metric (.cacheLookup .hit)]) := by
  rw [found, Entry.restore_of_replayable h]
  rfl

theorem found_fst_eq_none {key : String} {answer : Except StoreError (Option Bytes)}
    (h : ∀ raw e body, answer = .ok (some raw) → ¬ Entry.Replayable raw e body) :
    (found key answer).1 = none := by
  rcases answer with e | _ | raw
  · rfl
  · rfl
  · obtain ⟨err, hrestore⟩ := Entry.exists_restore_eq_error fun e body ↦ h raw e body rfl
    rw [found, hrestore]

/-- A hit is the response, and nothing behind the cache has a part in it. -/
theorem cached_of_replayable {settings : CacheSettings} {req : Request} {w : World σ}
    {raw body : Bytes} {e : Cache.Entry} (hget : req.method = .get)
    (h : Entry.Replayable raw e body)
    (hraw : (Run.get (settings.key req) w).1 = .ok (some raw)) (next : Service σ) :
    cached settings next req w =
      (Entry.response h, (Run.get (settings.key req) w).2.noted [.metric (.cacheLookup .hit)]) := by
  have hlookup := lookup?_apply (settings.key req) w
  rw [hraw, found_of_replayable h] at hlookup
  rw [cached_of_lookup?_eq_some hget (congrArg Prod.fst hlookup), hlookup]

/-- Without a hit the service behind runs once. -/
theorem cached_of_not_hits {settings : CacheSettings} {req : Request} {w : World σ}
    (hget : req.method = .get) (h : ¬ Hits settings req w) :
    ∃ seen : Journal, seen.visits = [] ∧ ∀ next,
      let behind := next req ((Run.get (settings.key req) w).2.noted seen)
      cached settings next req w = capturing settings (settings.key req) behind.1 behind.2 := by
  have hnone : (found (settings.key req) (Run.get (settings.key req) w).1).1 = none :=
    found_fst_eq_none fun raw e body hraw hreplay ↦ h ⟨hget, raw, e, body, hraw, hreplay⟩
  refine ⟨_, visits_found (settings.key req) (Run.get (settings.key req) w).1, fun next ↦ ?_⟩
  have hlookup := lookup?_apply (settings.key req) w
  have hmiss : (lookup? (settings.key req) w).1 = none := by rw [hlookup, hnone]
  rw [cached_of_lookup?_eq_none hget hmiss, hlookup]

theorem visits_get (key : String) (w : World σ) :
    (Run.get key w).2.journal.visits = w.journal.visits := Run.quiet_call _ _ _ w

variable {fits : Headers → Bool}

/-- Where the program does not end, the cache does what it does where all fields fit. -/
theorem cachedWithin?_eq_some {settings : CacheSettings} {next : Service σ} {req : Request}
    {w : World σ} {out : Response × World σ}
    (h : cachedWithin? fits settings next req w = some out) :
    cached settings next req w = out := by
  rw [cachedWithin?] at h
  split_ifs at h with hother
  · cases h
    rw [cached, if_pos hother]
  · obtain ⟨-, -, hout⟩ := Option.map_eq_some_iff.mp h
    exact hout

theorem cachedWithin?_of_replayable {settings : CacheSettings} {req : Request} {w : World σ}
    {raw body : Bytes} {e : Cache.Entry} (hget : req.method = .get)
    (h : Entry.Replayable raw e body)
    (hraw : (Run.get (settings.key req) w).1 = .ok (some raw)) (next : Service σ) :
    cachedWithin? fits settings next req w =
      if fits (Entry.response h).headers then some (cached settings next req w) else none := by
  rw [cachedWithin?, if_neg fun hne ↦ hne hget, lookupWithin?, hraw]
  simp only [Entry.restoreWithin?_of_replayable h]
  split_ifs <;> rfl

theorem cachedWithin?_of_not_hits {settings : CacheSettings} {req : Request} {w : World σ}
    (hget : req.method = .get) (h : ¬ Hits settings req w) (next : Service σ) :
    cachedWithin? fits settings next req w = some (cached settings next req w) := by
  rw [cachedWithin?, if_neg fun hne ↦ hne hget, lookupWithin?]
  rcases hanswer : (Run.get (settings.key req) w).1 with e | _ | raw
  · rfl
  · rfl
  · have hnone : ∀ e body, ¬ Entry.Replayable raw e body := fun e body hreplay ↦
      h ⟨hget, raw, e, body, hanswer, hreplay⟩
    simp only [Entry.restoreWithin?_of_not_replayable hnone]
    rfl

theorem failsOpen (fits : Headers → Bool) (settings : CacheSettings) (req : Request)
    (w : World σ) : FailsOpen fits settings req w where
  passesOn hother next := by rw [cachedWithin?, if_pos hother]
  replays hget raw e body h hraw next := by
    rw [cachedWithin?_of_replayable hget h hraw, cached_of_replayable hget h hraw]
  transparent hget hmiss := by
    obtain ⟨seen, -, hcached⟩ := cached_of_not_hits hget hmiss
    refine ⟨seen, fun next ↦ ?_⟩
    intro behind
    obtain ⟨halike, skipped, hskipped, hworld⟩ :=
      capturing_apply settings (settings.key req) behind.1 behind.2
    refine ⟨_, halike, skipped, hskipped, ?_⟩
    rw [cachedWithin?_of_not_hits hget hmiss, hcached, ← hworld]
    rfl
  visits handler hquiet response w' hout := by
    obtain rfl : (cached settings (observed handler) req w).2 = w' :=
      congrArg Prod.snd (cachedWithin?_eq_some hout)
    constructor
    · rintro ⟨hget, raw, e, body, hraw, hreplay⟩
      rw [cached_of_replayable hget hreplay hraw, World.visits_noted, visits_get]
      exact List.append_nil _
    · intro hmiss
      by_cases hget : req.method = .get
      · obtain ⟨seen, hseen, hcached⟩ := cached_of_not_hits hget hmiss
        rw [hcached]
        refine (Layer.quiet_capturing settings (settings.key req) _ _).trans ?_
        rw [visits_observed (hquiet req), World.visits_noted, visits_get, hseen, List.append_nil]
      · rw [cached, if_pos hget, visits_observed (hquiet req)]

theorem deletesBehind (pattern : String) (next : Service σ) (req : Request) (w : World σ) :
    DeletesBehind pattern next req w where
  response_eq := rfl
  world_eq := by
    have hworld : (invalidating pattern next req w).2 = (invalidation pattern (next req w).2).2 :=
      rfl
    rw [hworld, invalidation]
    rcases hdelete : Run.deleteByPattern pattern (next req w).2 with ⟨e | n, w'⟩
    · refine ⟨[.metric (.cacheInvalidation false), .event (.invalidationFailed pattern e)],
        rfl, rfl, ?_⟩
      simp only [bind, StateT.bind, hdelete, Run.count, Run.log, Run.note_apply, World.noted_noted]
      rfl
    · refine ⟨[.metric (.cacheInvalidation true)], rfl, rfl, ?_⟩
      simp only [bind, StateT.bind, hdelete]
      rfl

/-- **The cache fails open**, but for values with more header fields than fit. -/
theorem cached_failsOpen (req : Request) (w : World σ) :
    (∀ fits settings, FailsOpen fits settings req w) ∧
      ∀ pattern next, DeletesBehind pattern next req w :=
  ⟨fun fits settings ↦ failsOpen fits settings req w,
    fun pattern next ↦ deletesBehind pattern next req w⟩

end Service

/-! ## Values that are not replayed as they are -/

/-- The field name with a number. -/
def numbered (n : Nat) : String := String.ofList ('x' :: '-' :: Nat.toDigits 10 n)

theorem numbered_injective : Function.Injective numbered := fun m n h ↦ by
  have hdigits : Nat.toDigits 10 m = Nat.toDigits 10 n := by
    simpa [numbered] using congrArg String.toList h
  rw [← Nat.ofDigitChars_ten_toDigits (n := m), hdigits, Nat.ofDigitChars_ten_toDigits]

theorem mem_numbered {n : Nat} {c : Char} (hc : c ∈ (numbered n).toList) :
    c = 'x' ∨ c = '-' ∨ '0' ≤ c ∧ c ≤ '9' := by
  rw [numbered, String.toList_ofList, List.mem_cons, List.mem_cons] at hc
  refine hc.imp_right (Or.imp_right fun hc ↦ ?_)
  have hdigit := Nat.isDigit_of_mem_toDigits (by decide) (by decide) hc
  simpa [Char.isDigit, Char.le_def] using hdigit

theorem fieldName?_numbered {n : Nat} (hn : n < 100000) :
    Http.fieldName? (numbered n) = some (numbered n) := by
  have htoken : Http.isToken (numbered n) = true := by
    rw [Http.isToken, Bool.and_eq_true]
    refine ⟨by simp [numbered], List.all_eq_true.mpr fun c hc ↦ ?_⟩
    rcases mem_numbered hc with rfl | rfl | ⟨hl, hu⟩
    · decide
    · decide
    · simp [Http.isTokenChar, hl, hu]
  have hascii : ∀ c ∈ 'x' :: '-' :: Nat.toDigits 10 n, c.toNat < 128 := by
    intro c hc
    rcases mem_numbered (c := c) (n := n) (by rwa [numbered, String.toList_ofList]) with
      rfl | rfl | ⟨-, hu⟩
    · decide
    · decide
    · exact Nat.lt_of_le_of_lt hu (by decide)
  have hsize : (numbered n).utf8ByteSize < 65536 := by
    have hlength : (Nat.toDigits 10 n).length ≤ 5 :=
      (Nat.length_toDigits_le_iff (by decide) (by decide)).mpr hn
    have hutf8 : (numbered n).utf8ByteSize = (utf8 (numbered n)).length := rfl
    rw [hutf8, numbered, utf8_ofList_of_ascii hascii, List.length_map, List.length_cons,
      List.length_cons]
    omega
  have hlower : Text.lower (numbered n) = numbered n := by
    rw [Text.lower, List.map_congr_left (g := id) fun c hc ↦ ?_, List.map_id, String.ofList_toList]
    rcases mem_numbered hc with rfl | rfl | ⟨-, hu⟩
    · decide
    · decide
    · rw [Text.lowerChar, if_neg]
      · rfl
      · have hlt : c.toNat < 'A'.toNat := Nat.lt_of_le_of_lt hu (by decide)
        rw [Bool.and_eq_true, decide_eq_true_iff]
        exact fun hcapital ↦ Nat.not_le.mpr hlt hcapital.1
  rw [Http.fieldName?, htoken, decide_eq_true hsize, hlower]
  rfl

namespace Cache.Entry

/-- The record of a response with more names than there can be. -/
def crowded : Entry :=
  ⟨200, (List.range (Headers.maxNames + 1)).map fun n ↦ (numbered n, ""), ""⟩

/-- The record of a response with a name that is none. -/
def misnamed : Entry := ⟨200, [("bad name", "x")], ""⟩

theorem headers_response {raw body : Bytes} {e : Entry} (h : Replayable raw e body) :
    (response h).headers = e.headers.filterMap replayedField? := rfl

theorem replayable_encode {e : Entry} {body : Bytes} (hstatus : 100 ≤ e.status ∧ e.status ≤ 999)
    (hbody : e.body = Base64.standard.encode body) : Replayable e.encode e body :=
  ⟨decode?_encode (Nat.le_trans hstatus.2 (by decide)), hstatus, hbody⟩

theorem replayable_crowded : Replayable crowded.encode crowded [] :=
  replayable_encode (by decide) rfl

theorem replayable_misnamed : Replayable misnamed.encode misnamed [] :=
  replayable_encode (by decide) rfl

theorem filterMap_replayedField?_crowded : crowded.headers.filterMap replayedField? =
    (List.range (Headers.maxNames + 1)).map fun n ↦ (numbered n, []) := by
  rw [crowded, List.filterMap_map]
  refine List.filterMap_eq_map_iff_forall_eq_some.mpr fun n hn ↦ ?_
  have hlt : n < 100000 := Nat.lt_trans (List.mem_range.mp hn) (by decide)
  simp only [Function.comp_apply, replayedField?, fieldName?_numbered hlt]
  rfl

theorem not_fits_crowded : Headers.fits (response replayable_crowded).headers = false := by
  rw [headers_response, filterMap_replayedField?_crowded]
  refine Headers.not_fits_of_nodup ?_ ?_
  · rw [List.map_map]
    exact List.nodup_range.map numbered_injective
  · rw [List.length_map, List.length_range]
    exact Nat.lt_add_one Headers.maxNames

end Cache.Entry

namespace Service

/-- A value that was stored is found. -/
theorem get_set (s : MemoryStore) (now : Instant) (key : String) (raw : Bytes) {ttl : Duration}
    (httl : 0 < ttl) :
    (Run.get key (World.start (s.set now key raw ttl) now)).1 = .ok (some raw) := by
  have hlive : (s.set now key raw ttl).live? now key = some ⟨.value raw, now + ttl⟩ := by
    rw [MemoryStore.live?_set raw ttl (Nat.le_refl now), if_pos rfl]
    exact Option.filter_eq_some_iff.mpr ⟨rfl, decide_eq_true (Nat.lt_add_of_pos_right httl)⟩
  have hfound := MemoryStore.get_fst (s.set now key raw ttl) now key
  rw [hlive] at hfound
  exact congrArg Except.ok hfound

/-- The records of two responses, with a status and a body as they have to be. The one with too many
names ends the program; the other is replayed without a field. -/
theorem not_replayed_exactly :
    let settings : CacheSettings := ⟨nanosPerSec, "cache:", 1000⟩
    let req : Request := ⟨.get, ⟨"/x", none⟩, [], none, none, none, none⟩
    let next : Service MemoryStore := fun _ ↦ pure (.ofStatus .notFound)
    let holding (raw : Bytes) : World MemoryStore :=
      .start ((MemoryStore.new 0).set 0 (settings.key req) raw settings.ttl) 0
    (Entry.Replayable Entry.crowded.encode Entry.crowded [] ∧
      cachedWithin? Headers.fits settings next req (holding Entry.crowded.encode) = none) ∧
    (Entry.Replayable Entry.misnamed.encode Entry.misnamed [] ∧
      (cachedWithin? Headers.fits settings next req (holding Entry.misnamed.encode)).map
        (fun out ↦ out.1.headers) = some []) := by
  intro settings req next holding
  have hget := fun raw ↦ get_set (MemoryStore.new 0) 0 (settings.key req) raw
    (show 0 < settings.ttl by decide)
  refine ⟨⟨Entry.replayable_crowded, ?_⟩, ⟨Entry.replayable_misnamed, ?_⟩⟩
  · rw [cachedWithin?_of_replayable rfl Entry.replayable_crowded (hget _), Entry.not_fits_crowded]
    rfl
  · rw [cachedWithin?_of_replayable rfl Entry.replayable_misnamed (hget _),
      cached_of_replayable rfl Entry.replayable_misnamed (hget _)]
    rfl

end Service

end Gatehouse
