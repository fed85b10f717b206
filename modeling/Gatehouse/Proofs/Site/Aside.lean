import Mathlib.Logic.Relation
import Gatehouse.Proofs.Cache.Erasure
import Gatehouse.Proofs.Layer.Passage
import Gatehouse.Site

/-!
# What a site does besides counting

Counting a request is one thing that happens to it on its way through a site, and much else happens
before and after. `Aside` says of two states that between them nobody was counted, and that nothing
was written or deleted and no client shown in the log but what is within a given scope. It is the
closure of the single steps, so it holds of every layer and handler as soon as it holds of what they
call; **`Site.aside_dispatch`** collects them.

Of what happens aside, two things can be read off: what the notes in the journal say, for stores of
any kind, and what a store in memory shows of the keys that are out of scope.
-/

namespace Gatehouse

/-! ## Counters and clients in a journal -/

/-- The event shows the given client, or none. -/
def Event.Shows (ip : String) (e : Event) : Prop :=
  ∀ v, ("client_ip", v) ∈ e.fields → v = .text ip

namespace Journal

/-- The counters to which one was added, in order. -/
def counted (j : Journal) : List String :=
  j.calls.filterMap fun c ↦ if c.op = .increment then some c.subject else none

theorem events_append (j j' : Journal) : (j ++ j').events = j.events ++ j'.events :=
  List.filterMap_append

theorem counted_append (j j' : Journal) : (j ++ j').counted = j.counted ++ j'.counted := by
  simp only [counted, calls, List.filterMap_append]

/-- The notes show the given client and no other. -/
def Shows (ip : String) (j : Journal) : Prop := ∀ e ∈ j.events, e.Shows ip

theorem Shows.append {ip : String} {j j' : Journal} (h : j.Shows ip) (h' : j'.Shows ip) :
    (j ++ j').Shows ip := by
  intro e he
  rw [events_append] at he
  exact (List.mem_append.mp he).elim (h e) (h' e)

end Journal

/-! ## Steps aside -/

section

variable {σ : Type} [CounterStore σ] [CacheStore σ]

/-- What may be touched besides counting. -/
structure Aside.Scope where
  /-- The client that may be shown in the log. -/
  client : String
  /-- The keys under which something may be written. -/
  own : String → Prop
  /-- The patterns whose keys may be deleted. -/
  purges : String → Prop

/-- A single thing that happens besides counting. -/
inductive Aside.Step (scope : Aside.Scope) : World σ → World σ → Prop
  | note {w : World σ} (n : Note) (hcall : ∀ c, n ≠ .call c)
      (hshows : ∀ e, n = .event e → e.Shows scope.client) : Step scope w (Run.note n w).2
  | draw {w : World σ} (around : Surroundings) : Step scope w (Run.draw around w).2
  | ttl {w : World σ} (key : String) : Step scope w (Run.ttl key w).2
  | get {w : World σ} (key : String) : Step scope w (Run.get key w).2
  | set {w : World σ} {key : String} (value : Bytes) (ttl : Duration) (hown : scope.own key) :
    Step scope w (Run.set key value ttl w).2
  | deleteByPattern {w : World σ} {pattern : String} (hpurges : scope.purges pattern) :
    Step scope w (Run.deleteByPattern pattern w).2
  | ping {w : World σ} : Step scope w (Run.ping w).2

/-- Between two states nobody was counted, and nothing out of scope was touched. -/
def Aside (scope : Aside.Scope) : World σ → World σ → Prop :=
  Relation.ReflTransGen (Aside.Step scope)

namespace Aside

variable {scope : Aside.Scope} {w w' w'' : World σ} {notes notes' : Journal}

/-- What is noted of things that happen aside. -/
structure Notes (scope : Aside.Scope) (w w' : World σ) (notes : Journal) : Prop where
  journal_eq : w'.journal = w.journal ++ notes
  counted_eq : notes.counted = []
  shows : notes.Shows scope.client
  purges : ∀ pattern ∈ notes.deleted, scope.purges pattern

omit [CounterStore σ] [CacheStore σ] in
theorem Notes.refl : Notes scope w w [] := ⟨(List.append_nil _).symm, rfl, nofun, nofun⟩

omit [CounterStore σ] [CacheStore σ] in
theorem Notes.trans (h : Notes scope w w' notes) (h' : Notes scope w' w'' notes') :
    Notes scope w w'' (notes ++ notes') where
  journal_eq := by rw [h'.journal_eq, h.journal_eq, List.append_assoc]
  counted_eq := by rw [Journal.counted_append, h.counted_eq, h'.counted_eq, List.append_nil]
  shows := h.shows.append h'.shows
  purges pattern hpattern := by
    rw [Journal.deleted_append] at hpattern
    exact (List.mem_append.mp hpattern).elim (h.purges pattern) (h'.purges pattern)

theorem Step.exists_notes (h : Step scope w w') : ∃ notes, Notes scope w w' notes := by
  cases h with
  | note n hcall hshows =>
    refine ⟨[n], rfl, ?_, fun e he ↦ ?_, ?_⟩
    · cases n with
      | call c => exact absurd rfl (hcall c)
      | event e | metric m | visit v => rfl
    · cases n with
      | event e' =>
        obtain rfl : e = e' := List.mem_singleton.mp he
        exact hshows e rfl
      | metric m | call c | visit v => cases he
    · cases n with
      | call c => exact absurd rfl (hcall c)
      | event e | metric m | visit v => exact nofun
  | draw around => exact ⟨[], (List.append_nil _).symm, rfl, nofun, nofun⟩
  | ttl key | get key | set value ttl hown | ping => exact ⟨_, rfl, rfl, nofun, nofun⟩
  | deleteByPattern hpurges =>
    refine ⟨_, rfl, rfl, nofun, fun pattern hpattern ↦ ?_⟩
    obtain rfl := List.mem_singleton.mp hpattern
    exact hpurges

/-- What the journal says: nobody was counted, and nothing out of scope is noted. -/
theorem exists_notes (h : Aside scope w w') : ∃ notes, Notes scope w w' notes := by
  induction h with
  | refl => exact ⟨[], .refl⟩
  | tail _ hstep ih =>
    obtain ⟨notes, hnotes⟩ := ih
    obtain ⟨notes', hnotes'⟩ := hstep.exists_notes
    exact ⟨notes ++ notes', hnotes.trans hnotes'⟩

end Aside

end

namespace Aside

variable {scope : Aside.Scope} {w w' : World MemoryStore}

theorem Step.live?_eq (h : Step scope w w') : w'.now = w.now ∧
    ∃ notes : Journal, w'.journal = w.journal ++ notes ∧
      ∀ key, ¬ scope.own key → ¬ notes.Purges key → ∀ later, w.now ≤ later →
        w'.store.live? later key = w.store.live? later key := by
  cases h with
  | note n hcall hshows => exact ⟨rfl, [n], rfl, fun _ _ _ _ _ ↦ rfl⟩
  | draw around => exact ⟨rfl, [], (List.append_nil _).symm, fun _ _ _ _ _ ↦ rfl⟩
  | ttl key | ping => exact ⟨rfl, _, rfl, fun _ _ _ _ _ ↦ rfl⟩
  | get key => exact ⟨rfl, _, rfl, fun _ _ _ _ hlater ↦ MemoryStore.live?_get hlater⟩
  | set value ttl hown =>
    refine ⟨rfl, _, rfl, fun key hother _ later hlater ↦ ?_⟩
    refine (MemoryStore.live?_set value ttl hlater).trans (if_neg ?_)
    rintro rfl
    exact hother hown
  | @deleteByPattern pattern =>
    refine ⟨rfl, _, rfl, fun key _ hkept later _ ↦ ?_⟩
    refine (MemoryStore.live?_deleteByPattern w.now pattern).trans (if_neg fun hmatch ↦ hkept ?_)
    exact ⟨pattern, List.mem_singleton.mpr rfl, hmatch⟩

/-- What a store in memory shows: no time passes, and keys that are out of scope and were not
deleted are as they were. -/
theorem live?_eq (h : Aside scope w w') : w'.now = w.now ∧
    ∃ notes : Journal, w'.journal = w.journal ++ notes ∧
      ∀ key, ¬ scope.own key → ¬ notes.Purges key → ∀ later, w.now ≤ later →
        w'.store.live? later key = w.store.live? later key := by
  induction h with
  | refl => exact ⟨rfl, [], (List.append_nil _).symm, fun _ _ _ _ _ ↦ rfl⟩
  | tail _ hstep ih =>
    obtain ⟨hnow, notes, hnotes, hlive⟩ := ih
    obtain ⟨hnow', notes', hnotes', hlive'⟩ := hstep.live?_eq
    refine ⟨hnow'.trans hnow, notes ++ notes', ?_, ?_⟩
    · rw [hnotes', hnotes, List.append_assoc]
    · intro key hother hkept later hlater
      rw [Journal.purges_append, not_or] at hkept
      rw [hlive' key hother hkept.2 later (hnow ▸ hlater), hlive key hother hkept.1 later hlater]

end Aside

/-! ## Runs aside -/

namespace Run

variable {σ α β : Type} [CounterStore σ] [CacheStore σ]

/-- In whatever state it starts, the run happens aside and gives something as described. -/
def StaysAside (scope : Aside.Scope) (gives : α → Prop) (r : Run σ α) : Prop :=
  ∀ w, Aside scope w (r w).2 ∧ gives (r w).1

variable {scope : Aside.Scope} {gives : α → Prop}

theorem aside_pure {a : α} (ha : gives a) : (pure a : Run σ α).StaysAside scope gives :=
  fun _ ↦ ⟨.refl, ha⟩

/-- What has happened aside since some state goes on to do so. -/
theorem StaysAside.after {r : Run σ α} {f : α → Run σ β} (gives : α → Prop) (gives' : β → Prop)
    {w w₀ : World σ} (hr : Aside scope w₀ (r w).2 ∧ gives (r w).1)
    (hf : ∀ a, gives a → (f a).StaysAside scope gives') :
    Aside scope w₀ ((r >>= f) w).2 ∧ gives' ((r >>= f) w).1 :=
  ⟨hr.1.trans (hf _ hr.2 _).1, (hf _ hr.2 _).2⟩

theorem StaysAside.bind {r : Run σ α} {f : α → Run σ β} {gives' : β → Prop}
    (hr : r.StaysAside scope gives) (hf : ∀ a, gives a → (f a).StaysAside scope gives') :
    (r >>= f).StaysAside scope gives' := fun w ↦
  StaysAside.after gives gives' (hr w) hf

/-- What a step gives may be anything. -/
abbrev AnyAside (scope : Aside.Scope) (r : Run σ α) : Prop :=
  r.StaysAside scope fun _ ↦ True

theorem aside_now : (now : Run σ Instant).AnyAside scope := fun _ ↦ ⟨.refl, trivial⟩

theorem aside_count (m : Metric) : (count m : Run σ Unit).AnyAside scope := fun _ ↦
  ⟨.single (.note (.metric m) (fun _ ↦ nofun) fun _ ↦ nofun), trivial⟩

theorem aside_log {e : Event} (he : e.Shows scope.client) :
    (log e : Run σ Unit).AnyAside scope := fun _ ↦
  ⟨.single (.note (.event e) (fun _ ↦ nofun) fun _ heq ↦ Note.event.inj heq ▸ he), trivial⟩

theorem aside_ttl (key : String) : (ttl key : Run σ _).AnyAside scope := fun _ ↦
  ⟨.single (.ttl key), trivial⟩

theorem aside_get (key : String) : (get key : Run σ _).AnyAside scope := fun _ ↦
  ⟨.single (.get key), trivial⟩

theorem aside_set {key : String} (value : Bytes) (ttl : Duration) (hown : scope.own key) :
    (set key value ttl : Run σ _).AnyAside scope := fun _ ↦
  ⟨.single (.set value ttl hown), trivial⟩

theorem aside_deleteByPattern {pattern : String} (hpurges : scope.purges pattern) :
    (deleteByPattern pattern : Run σ _).AnyAside scope := fun _ ↦
  ⟨.single (.deleteByPattern hpurges), trivial⟩

theorem aside_ping : (ping : Run σ _).AnyAside scope := fun _ ↦ ⟨.single .ping, trivial⟩

end Run

/-! ## Bodies -/

section

variable {σ : Type} [CounterStore σ] [CacheStore σ] {scope : Aside.Scope}

/-- All copies of the body that are under way go to certain keys. -/
def Body.CopiesTo (own : String → Prop) : Body → Prop
  | .full _ => True
  | .framed _ _ _ => True
  | .copied inner copy => (∀ c ∈ copy, own c.key) ∧ inner.CopiesTo own

namespace Cache.Capture

theorem aside_record (c : Capture) (data : Bytes) :
    (c.record data : Run σ _).StaysAside scope fun copy ↦ ∀ c' ∈ copy, c'.key = c.key := by
  rw [record]
  split_ifs
  · refine (Run.aside_count _).bind fun _ _ ↦ Run.aside_pure fun c' hc' ↦ ?_
    exact absurd hc' (Option.not_mem_none c')
  · refine Run.aside_pure fun c' hc' ↦ ?_
    rw [← Option.some.inj hc']

theorem aside_finish {c : Capture} (hown : scope.own c.key) :
    (c.finish : Run σ Unit).AnyAside scope :=
  (Run.aside_set _ _ hown).bind fun answer _ ↦ by
    cases answer with
    | ok _ => exact Run.aside_count _
    | error e =>
      have hshows : Event.Shows scope.client (.writeFailed c.key e) := by
        simp [Event.Shows, Event.fields]
      exact (Run.aside_count _).bind fun _ _ ↦ Run.aside_log hshows

end Cache.Capture

namespace Body

theorem aside_poll {b : Body} (hb : b.CopiesTo scope.own) :
    (b.poll : Run σ _).StaysAside scope fun answer ↦ answer.2.CopiesTo scope.own := by
  induction b with
  | full data => cases data <;> exact Run.aside_pure trivial
  | framed frames said announced => cases frames <;> exact Run.aside_pure trivial
  | copied inner copy ih =>
    obtain ⟨hcopy, hinner⟩ := hb
    refine (ih hinner).bind fun (frame, rest) hrest ↦ ?_
    have hnone : (copied rest none).CopiesTo scope.own := ⟨nofun, hrest⟩
    have hkept : (copied rest copy).CopiesTo scope.own := ⟨hcopy, hrest⟩
    cases copy with
    | none => rcases frame with _ | data | trailers | reason <;> exact Run.aside_pure hkept
    | some c =>
      rcases frame with _ | data | trailers | reason
      · exact (Cache.Capture.aside_finish (hcopy c rfl)).bind fun _ _ ↦ Run.aside_pure hnone
      · refine (c.aside_record data).bind fun copy hsame ↦ Run.aside_pure ⟨?_, hrest⟩
        exact fun c' hc' ↦ hsame c' hc' ▸ hcopy c rfl
      · exact Run.aside_pure hkept
      · exact Run.aside_pure hnone

theorem aside_discard {b : Body} (hb : b.CopiesTo scope.own) :
    (b.discard : Run σ Unit).AnyAside scope := by
  induction b with
  | full data | framed frames said announced => exact Run.aside_pure trivial
  | copied inner copy ih =>
    obtain ⟨hcopy, hinner⟩ := hb
    cases copy with
    | none => exact ih hinner
    | some c =>
      rw [discard]
      split_ifs
      · exact (Cache.Capture.aside_finish (hcopy c rfl)).bind fun _ _ ↦ ih hinner
      · exact ih hinner

end Body

/-! ## Layers -/

/-- What has been found out about the sender of the request shows the given client. -/
def Request.Shows (ip : String) (req : Request) : Prop := (Context.of req).clientIp = ip

/-- Asked by a client that may be shown, the service works aside, and copies of its bodies go to
keys within the scope. -/
def Service.WorksAside (scope : Aside.Scope) (s : Service σ) : Prop :=
  ∀ req : Request, req.Shows scope.client →
    (s req).StaysAside scope fun r ↦ r.body.CopiesTo scope.own

namespace Service

variable {next : Service σ}

theorem aside_reject (operation : String) {req : Request} (hreq : req.Shows scope.client)
    (f : Failure) : (reject operation (Context.of req) f : Run σ _).StaysAside scope fun r ↦
      r.body.CopiesTo scope.own := by
  have hshows : Event.Shows scope.client (.rejected operation f (Context.of req)) := by
    rw [Request.Shows] at hreq
    simp [Event.Shows, Event.fields, hreq]
  exact (Run.aside_log hshows).bind fun _ _ ↦ Run.aside_pure trivial

theorem aside_lookup? (key : String) :
    (lookup? key : Run σ _).StaysAside scope fun found ↦ ∀ r ∈ found, r.body.CopiesTo scope.own :=
  (Run.aside_get key).bind fun answer _ ↦ by
    have hfailed : ∀ e, Event.Shows scope.client (.readFailed key e) := by
      simp [Event.Shows, Event.fields]
    have hunreadable : ∀ e, Event.Shows scope.client (.unreadable key e) := by
      simp [Event.Shows, Event.fields]
    rcases answer with e | _ | raw
    · exact (Run.aside_count _).bind fun _ _ ↦ (Run.aside_log (hfailed e)).bind fun _ _ ↦
        Run.aside_pure nofun
    · exact (Run.aside_count _).bind fun _ _ ↦ Run.aside_pure nofun
    · cases hrestore : Cache.Entry.restore raw with
      | error e =>
        simp only [hrestore]
        exact (Run.aside_count _).bind fun _ _ ↦ (Run.aside_log (hunreadable e)).bind fun _ _ ↦
          Run.aside_pure nofun
      | ok response =>
        simp only [hrestore]
        refine (Run.aside_count _).bind fun _ _ ↦ Run.aside_pure fun r hr ↦ ?_
        obtain rfl := Option.some.inj hr
        trivial

theorem aside_capturing (settings : CacheSettings) {key : String} (hown : scope.own key)
    {r : Response} (hr : r.body.CopiesTo scope.own) :
    (capturing settings key r : Run σ _).StaysAside scope fun r ↦ r.body.CopiesTo scope.own := by
  rw [capturing]
  split_ifs
  · exact Run.aside_pure hr
  · exact (Run.aside_count _).bind fun _ _ ↦ Run.aside_pure hr
  · exact (Run.aside_count _).bind fun _ _ ↦ Run.aside_pure hr
  · refine Run.aside_pure ⟨fun c hc ↦ ?_, hr⟩
    rw [← Option.some.inj hc]
    exact hown

theorem aside_invalidation {pattern : String} (hpurges : scope.purges pattern) :
    (invalidation pattern : Run σ Unit).AnyAside scope :=
  (Run.aside_deleteByPattern hpurges).bind fun answer _ ↦ by
    cases answer with
    | ok n => exact Run.aside_count _
    | error e =>
      have hshows : Event.Shows scope.client (.invalidationFailed pattern e) := by
        simp [Event.Shows, Event.fields]
      exact (Run.aside_count _).bind fun _ _ ↦ Run.aside_log hshows

namespace WorksAside

theorem cached {settings : CacheSettings} (hown : ∀ req, scope.own (settings.key req))
    (h : next.WorksAside scope) : (cached settings next).WorksAside scope := by
  intro req hreq
  rw [Service.cached]
  split_ifs
  · exact h req hreq
  · refine (aside_lookup? _).bind fun found hfound ↦ ?_
    cases found with
    | some r => exact Run.aside_pure (hfound r rfl)
    | none => exact (h req hreq).bind fun r hr ↦ aside_capturing settings (hown req) hr

theorem invalidating {pattern : String} (hpurges : scope.purges pattern)
    (h : next.WorksAside scope) : (invalidating pattern next).WorksAside scope := fun req hreq ↦
  (h req hreq).bind fun _ hr ↦ (aside_invalidation hpurges).bind fun _ _ ↦ Run.aside_pure hr

theorem gated (around : Surroundings) (gate : Gate) (cookie : String)
    (h : next.WorksAside scope) : (gated around gate cookie next).WorksAside scope := by
  intro req hreq
  have hrefused (f : Failure) : (do
      Run.count (.authFailure gate f.code)
      reject gate.operation (Context.of req) f : Run σ Response).StaysAside scope
        fun r ↦ r.body.CopiesTo scope.own :=
    (Run.aside_count _).bind fun _ _ ↦ aside_reject _ hreq f
  have hknown (u : User) := h { req with user := some u } hreq
  refine Run.aside_now.bind fun now _ ↦ ?_
  rcases htolerated : gate.tolerated? (req.headers.authenticate around cookie now) with _ | f
  · rcases hlet : gate.letThrough (req.headers.authenticate around cookie now) with f | _ | u <;>
      simp only [htolerated, hlet]
    · exact hrefused f
    · exact h req hreq
    · exact hknown u
  · have hshows : Event.Shows scope.client (.anonymous f) := by simp [Event.Shows, Event.fields]
    rcases hlet : gate.letThrough (req.headers.authenticate around cookie now) with f' | _ | u <;>
      simp only [htolerated, hlet] <;>
      refine (Run.aside_count _).bind fun _ _ ↦ (Run.aside_log hshows).bind fun _ _ ↦ ?_
    · exact hrefused f'
    · exact h req hreq
    · exact hknown u

theorem sharedWith (origins : Origins) (h : next.WorksAside scope) :
    (sharedWith origins next).WorksAside scope := by
  intro req hreq
  rw [Service.sharedWith]
  split_ifs
  · exact Run.aside_pure trivial
  · exact (h req hreq).bind fun _ hr ↦ Run.aside_pure hr

end WorksAside

/-- What the logger does when the service behind it has answered. -/
theorem aside_leave_logger (around : Surroundings) (filter : LogFilter) {req : Request}
    (hreq : req.Shows scope.client) (w : World σ) (r : Response) :
    (Layer.leave around (.logger filter) req w r).StaysAside scope fun r' ↦ r' = r := by
  have hshows : ∀ status duration, Event.Shows scope.client
      (.completed req.method.name req.target.path status duration (Context.of req)) := by
    rw [Request.Shows] at hreq
    simp [Event.Shows, Event.fields, hreq]
  refine Run.aside_now.bind fun now _ ↦ (Run.aside_count _).bind fun _ _ ↦ ?_
  split_ifs
  · exact (Run.aside_log (hshows _ _)).bind fun _ _ ↦ Run.aside_pure rfl
  · exact Run.aside_pure rfl

end Service

end

/-! ## The site behind its limiter -/

namespace Site

variable {σ : Type} [CounterStore σ] [CacheStore σ]

/-- The keys under which a site stores responses. -/
def IsCacheKey (site : Site) (key : String) : Prop := ∃ req, key = site.cacheSettings.key req

/-- What a site touches for a client besides counting it. -/
def scope (site : Site) (client : String) : Aside.Scope where
  client := client
  own := site.IsCacheKey
  purges pattern := pattern = site.settings.purgePattern

theorem aside_handler (site : Site) (scope : Aside.Scope) (r : Route) :
    (site.handler r : Service σ).WorksAside scope := by
  intro req _
  cases r with
  | health => exact Run.aside_now.bind fun _ _ ↦ Run.aside_pure trivial
  | ready =>
    refine Run.aside_ping.bind fun answer _ ↦ ?_
    cases answer with
    | ok _ => exact Run.aside_pure trivial
    | error e =>
      have hshows : Event.Shows scope.client (.storeUnreachable e) := by
        simp [Event.Shows, Event.fields]
      exact (Run.aside_log hshows).bind fun _ _ ↦ Run.aside_pure trivial
  | stats => exact Run.aside_now.bind fun _ _ ↦ Run.aside_pure trivial
  | me =>
    simp only [handler, Handlers.me]
    split <;> exact Run.aside_pure trivial
  | session => exact Run.aside_pure trivial
  | purge =>
    simp only [handler, Handlers.purge]
    split
    · exact Run.aside_pure trivial
    · next u _ =>
      have hshows : Event.Shows scope.client (.purgeRequested u) := by
        simp [Event.Shows, Event.fields]
      exact (Run.aside_log hshows).bind fun _ _ ↦ Run.aside_pure trivial

variable {scope : Aside.Scope}

theorem aside_served (site : Site) (around : Surroundings)
    (hown : ∀ req, scope.own (site.cacheSettings.key req)) {r : Route}
    (hpurges : r = .purge → scope.purges site.settings.purgePattern) :
    (site.served around r : Service σ).WorksAside scope := by
  have hhandler := site.aside_handler (σ := σ) scope r
  cases r with
  | health | ready => exact hhandler
  | stats => exact hhandler.cached hown
  | me => exact hhandler.gated around .required site.settings.authCookie
  | session => exact hhandler.gated around .optional site.settings.authCookie
  | purge =>
    exact (hhandler.invalidating (hpurges rfl)).gated around .admin site.settings.authCookie

/-- **Behind its limiter, a site counts nobody**, writes nothing but responses, and deletes nothing
unless the route is the purge. -/
theorem aside_dispatch (site : Site) (around : Surroundings) (route : Option Route)
    (hown : ∀ req, scope.own (site.cacheSettings.key req))
    (hpurges : route = some .purge → scope.purges site.settings.purgePattern) :
    (site.dispatch around route : Service σ).WorksAside scope := by
  intro req hreq
  cases route with
  | none => exact Run.aside_pure trivial
  | some r =>
    rw [dispatch]
    split_ifs
    · exact site.aside_served around hown (fun heq ↦ hpurges (congrArg some heq)) req hreq
    · exact Run.aside_pure trivial

end Site

end Gatehouse
