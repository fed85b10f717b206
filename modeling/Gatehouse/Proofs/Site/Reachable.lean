import Gatehouse.Proofs.Cache.Replay
import Gatehouse.Proofs.Site.Outcome
import Gatehouse.Proofs.Store.Truthful

/-!
# What sites can come to

Sites share a store, answer requests one after the other, and have the bodies of their answers read
or dropped in any order. Meanwhile the store may fail, forget and count as it likes, and others may
write to it whatever is no entry of a cache; but it gives nothing that was not written to it. The
states to which this leads are `Site.Serving.Reachable`.

In all of them what the store gives, if it is replayed at all, is a plain response: one in which no
limiter speaks. The only entries that a site writes are copies of handlers' answers, made behind the
limiter, and a numeral is no entry. The invariant has two halves, the octets in the store and the
copies that are still growing beside the bodies of answers:
**`Site.Serving.Reachable.isPlain`**.
-/

namespace Gatehouse

open TruthfulStore

/-! ## Plain octets and plain copies -/

/-- The header fields of a handler's answer. -/
def jsonHeaders : Headers := [("content-type", utf8 "application/json")]

namespace Cache

/-- Octets that are no entry of a cache. -/
def noEntry : Set Bytes := {raw | ∃ e, Entry.restore raw = .error e}

/-- Octets that, if they are replayed at all, are replayed as a plain response. -/
def plainOctets : Set Bytes :=
  {raw | ∀ status headers body, Entry.restore raw = .ok (status, headers, body) →
    (Response.ofBytes status headers body).IsPlain}

theorem noEntry_subset_plainOctets : noEntry ⊆ plainOctets := by
  rintro raw ⟨e, herror⟩ status headers body hrestore
  rw [herror] at hrestore
  cases hrestore

theorem numerals_subset_noEntry : numerals ⊆ noEntry := by
  rintro _ ⟨n, rfl⟩
  have hprint : utf8 n.repr = (Json.int n).print := by
    rw [Json.utf8_repr, Json.print, Json.tokens, List.flatMap_singleton]
    rfl
  refine ⟨.malformed, ?_⟩
  rw [Entry.restore, Entry.decode?, hprint, Json.parse?_print]
  rfl

theorem numerals_subset_plainOctets : numerals ⊆ plainOctets :=
  numerals_subset_noEntry.trans noEntry_subset_plainOctets

/-- A copy of a handler's answer. -/
structure Capture.IsPlain (c : Capture) : Prop where
  status_eq : c.status = .ok
  headers_eq : c.headers = jsonHeaders

theorem Capture.IsPlain.encode_mem {c : Capture} (h : c.IsPlain) :
    c.entry.encode ∈ plainOctets := by
  intro status headers body hrestore
  rw [entry, h.status_eq, h.headers_eq, Entry.restore_encode_capture] at hrestore
  cases hrestore
  exact ⟨of_decide_eq_true rfl, (by decide +kernel : ∀ name ∈ limiterFields,
    (Entry.replayed jsonHeaders).values name = [])⟩

end Cache

open Cache

/-- All copies of a body are copies of handlers' answers. -/
def Body.CopiesPlain : Body → Prop
  | copied inner copy => (∀ c ∈ copy, c.IsPlain) ∧ inner.CopiesPlain
  | _ => True

/-- A response in which no limiter speaks, nor will when a copy of it is replayed. -/
structure Response.StaysPlain (r : Response) : Prop extends r.IsPlain where
  copies : r.body.CopiesPlain

theorem Response.staysPlain_ofJson {status : Http.Status} (h : status ≠ .tooManyRequests)
    (v : Json) : (ofJson status v).StaysPlain := ⟨isPlain_ofJson h v, trivial⟩

theorem Response.staysPlain_ofStatus {status : Http.Status} (h : status ≠ .tooManyRequests) :
    (ofStatus status).StaysPlain := ⟨isPlain_ofStatus h, trivial⟩

/-! ## Reading bodies -/

section

variable {σ : Type} [CounterStore σ] [CacheStore σ] [TruthfulStore σ]

theorem Cache.Capture.keeps_finish {c : Capture} (h : c.IsPlain) :
    (c.finish : Run σ Unit).Keeps plainOctets fun _ ↦ True :=
  (Run.keeps_set _ _ h.encode_mem).bind fun answer _ ↦ by
    cases answer with
    | ok _ => exact Run.keeps_note _
    | error e => exact (Run.keeps_note _).bind fun _ _ ↦ Run.keeps_note _

theorem Cache.Capture.keeps_record {c : Capture} (h : c.IsPlain) (data : Bytes) :
    (c.record data : Run σ _).Keeps plainOctets fun copy ↦ ∀ c' ∈ copy, c'.IsPlain := by
  rw [record]
  split_ifs
  · exact (Run.keeps_note _).bind fun _ _ ↦ Run.keeps_pure fun c' hc' ↦
      absurd hc' (Option.not_mem_none c')
  · refine Run.keeps_pure ?_
    rintro _ ⟨⟩
    exact ⟨h.status_eq, h.headers_eq⟩

theorem Body.keeps_poll {b : Body} (h : b.CopiesPlain) :
    (b.poll : Run σ _).Keeps plainOctets fun answer ↦ answer.2.CopiesPlain := by
  induction b with
  | full data => cases data <;> exact Run.keeps_pure trivial
  | framed frames said announced => cases frames <;> exact Run.keeps_pure trivial
  | copied inner copy ih =>
    obtain ⟨hcopy, hinner⟩ := h
    refine (ih hinner).bind fun (frame, rest) hrest ↦ ?_
    have hnone : (copied rest none).CopiesPlain := ⟨nofun, hrest⟩
    have hkept : (copied rest copy).CopiesPlain := ⟨hcopy, hrest⟩
    cases copy with
    | none => rcases frame with _ | data | trailers | reason <;> exact Run.keeps_pure hkept
    | some c =>
      rcases frame with _ | data | trailers | reason
      · exact (Capture.keeps_finish (hcopy c rfl)).bind fun _ _ ↦ Run.keeps_pure hnone
      · exact (Capture.keeps_record (hcopy c rfl) data).bind fun copy hcopy' ↦
          Run.keeps_pure ⟨hcopy', hrest⟩
      · exact Run.keeps_pure hkept
      · exact Run.keeps_pure hnone

theorem Body.keeps_discard {b : Body} (h : b.CopiesPlain) :
    (b.discard : Run σ Unit).Keeps plainOctets fun _ ↦ True := by
  induction b with
  | full data | framed frames said announced => exact Run.keeps_pure trivial
  | copied inner copy ih =>
    obtain ⟨hcopy, hinner⟩ := h
    cases copy with
    | none => exact ih hinner
    | some c =>
      rw [discard]
      split_ifs
      · exact (Capture.keeps_finish (hcopy c rfl)).bind fun _ _ ↦ ih hinner
      · exact ih hinner

/-! ## Layers -/

namespace Service

variable {next : Service σ}

theorem keeps_reject (operation : String) (who : Context) {f : Failure}
    (hf : f.status ≠ .tooManyRequests) :
    (reject operation who f : Run σ _).Keeps plainOctets Response.StaysPlain :=
  (Run.keeps_note _).bind fun _ _ ↦ Run.keeps_pure (Response.staysPlain_ofJson hf _)

theorem keeps_gated (around : Surroundings) (gate : Gate) (cookie : String) (req : Request)
    (h : ∀ req : Request, (next req).Keeps plainOctets Response.StaysPlain) :
    (gated around gate cookie next req).Keeps plainOctets Response.StaysPlain := by
  refine Run.keeps_now.bind fun now _ ↦ ?_
  simp only []
  split
  -- What is tolerated is noted, and then the request is let through or turned away all the same.
  on_goal 2 => refine (Run.keeps_note _).bind fun _ _ ↦ (Run.keeps_note _).bind fun _ _ ↦ ?_
  all_goals
    split
    · rename_i f hlet
      exact (Run.keeps_note _).bind fun _ _ ↦ keeps_reject _ _ (Gate.of_letThrough_eq_error hlet).2
    · exact h req
    · exact h _

theorem keeps_invalidating (pattern : String) {req : Request}
    (h : (next req).Keeps plainOctets Response.StaysPlain) :
    (invalidating pattern next req).Keeps plainOctets Response.StaysPlain := by
  have hdelete : (invalidation pattern : Run σ Unit).Keeps plainOctets fun _ ↦ True :=
    (Run.keeps_deleteByPattern pattern).bind fun answer _ ↦ by
      cases answer with
      | ok _ => exact Run.keeps_note _
      | error e => exact (Run.keeps_note _).bind fun _ _ ↦ Run.keeps_note _
  exact h.bind fun r hr ↦ hdelete.bind fun _ _ ↦ Run.keeps_pure hr

/-- What is found in the cache is plain. -/
theorem keeps_lookup? (key : String) :
    (lookup? key : Run σ _).Keeps plainOctets fun found ↦ ∀ r ∈ found, r.StaysPlain := by
  refine (Run.keeps_get key).bind fun answer hplain ↦ ?_
  rcases answer with e | _ | raw
  · exact (Run.keeps_note _).bind fun _ _ ↦ (Run.keeps_note _).bind fun _ _ ↦ Run.keeps_pure nofun
  · exact (Run.keeps_note _).bind fun _ _ ↦ Run.keeps_pure nofun
  · rcases hrestore : Entry.restore raw with e | ⟨status, headers, body⟩ <;> simp only [hrestore]
    · exact (Run.keeps_note _).bind fun _ _ ↦ (Run.keeps_note _).bind fun _ _ ↦
        Run.keeps_pure nofun
    · refine (Run.keeps_note _).bind fun _ _ ↦ Run.keeps_pure ?_
      rintro _ ⟨⟩
      exact ⟨hplain raw rfl status headers body hrestore, trivial⟩

/-- The copy of a handler's answer is one. -/
theorem keeps_capturing (settings : CacheSettings) (key : String) (v : Json) :
    (capturing settings key (.ofJson .ok v) : Run σ _).Keeps plainOctets
      Response.StaysPlain := by
  have hplain : (Response.ofJson .ok v).StaysPlain := Response.staysPlain_ofJson (by decide) v
  rw [capturing]
  split_ifs
  · exact Run.keeps_pure hplain
  · exact (Run.keeps_note _).bind fun _ _ ↦ Run.keeps_pure hplain
  · exact (Run.keeps_note _).bind fun _ _ ↦ Run.keeps_pure hplain
  · refine Run.keeps_pure ⟨⟨hplain.status_ne, hplain.values_eq⟩, ?_, trivial⟩
    rintro _ ⟨⟩
    exact ⟨rfl, rfl⟩

theorem keeps_cached (settings : CacheSettings) {req : Request}
    (h : (next req).Keeps plainOctets fun r ↦ ∃ v, r = .ofJson .ok v) :
    (cached settings next req).Keeps plainOctets Response.StaysPlain := by
  rw [cached]
  split_ifs
  · refine h.imp ?_
    rintro _ ⟨v, rfl⟩
    exact Response.staysPlain_ofJson (by decide) v
  · refine (keeps_lookup? _).bind fun found hfound ↦ ?_
    cases found with
    | some r => exact Run.keeps_pure (hfound r rfl)
    | none =>
      refine h.bind ?_
      rintro _ ⟨v, rfl⟩
      exact keeps_capturing settings _ v

theorem keeps_sharedWith (origins : Origins) {req : Request}
    (h : (next req).Keeps plainOctets Response.StaysPlain) :
    (sharedWith origins next req).Keeps plainOctets Response.StaysPlain := by
  simp only [sharedWith]
  split_ifs
  · exact Run.keeps_pure ⟨isPlain_preflight _, trivial⟩
  · refine h.bind fun r hr ↦ Run.keeps_pure ⟨⟨hr.status_ne, fun name hname ↦ ?_⟩, hr.copies⟩
    have hne : name ≠ "vary" := by
      rintro rfl
      exact absurd hname (by decide)
    rw [Headers.values_withOrigin _ _ hname, Headers.values_append, if_neg hne, List.append_nil]
    exact hr.values_eq name hname

/-- The limiter counts, and copies nothing. -/
theorem keeps_limited (l : Limiter) {req : Request}
    (h : (next req).Keeps plainOctets Response.StaysPlain) :
    (limited l next req).Keeps plainOctets fun r ↦ r.body.CopiesPlain := by
  have hcheck : (l.check (Context.of req).clientIp : Run σ _).Keeps plainOctets fun _ ↦ True :=
    (Run.keeps_increment numerals_subset_plainOctets _ _ _).bind fun answer _ ↦ by
      cases answer with
      | error e => exact Run.keeps_pure trivial
      | ok n => exact (Run.keeps_ttl _).bind fun _ _ ↦ Run.keeps_now.bind fun _ _ ↦
          Run.keeps_pure trivial
  refine hcheck.bind fun answer _ ↦ ?_
  cases answer with
  | error e =>
    exact (Run.keeps_note _).bind fun _ _ ↦ (Run.keeps_note _).bind fun _ _ ↦
      Run.keeps_pure trivial
  | ok d =>
    cases hadmitted : d.admitted with
    | true =>
      simp only [hadmitted]
      exact h.bind fun r hr ↦ Run.keeps_pure hr.copies
    | false =>
      simp only [hadmitted]
      exact (Run.keeps_note _).bind fun _ _ ↦ (Run.keeps_note _).bind fun _ _ ↦
        Run.keeps_now.bind fun _ _ ↦ Run.keeps_pure trivial

end Service

/-! ## Sites -/

namespace Site

variable (site : Site) (around : Surroundings)

theorem keeps_stats (req : Request) : (site.handler .stats req : Run σ _).Keeps plainOctets
    fun r ↦ ∃ v, r = .ofJson .ok v :=
  Run.keeps_now.bind fun _ _ ↦ Run.keeps_pure ⟨_, rfl⟩

/-- Handlers copy nothing and write nothing. -/
theorem keeps_handler (r : Route) (req : Request) :
    (site.handler r req : Run σ Response).Keeps plainOctets Response.StaysPlain := by
  cases r with
  | health => exact Run.keeps_now.bind fun _ _ ↦
      Run.keeps_pure (Response.staysPlain_ofJson (by decide) _)
  | ready =>
    refine Run.keeps_ping.bind fun answer _ ↦ ?_
    cases answer with
    | ok _ => exact Run.keeps_pure (Response.staysPlain_ofJson (by decide) _)
    | error e =>
      exact (Run.keeps_note _).bind fun _ _ ↦
        Run.keeps_pure (Response.staysPlain_ofJson (by decide) _)
  | stats =>
    refine (site.keeps_stats req).imp ?_
    rintro _ ⟨v, rfl⟩
    exact Response.staysPlain_ofJson (by decide) v
  | me =>
    simp only [handler, Handlers.me, Request.currentUser]
    cases req.user <;> exact Run.keeps_pure (Response.staysPlain_ofJson (by decide) _)
  | session => exact Run.keeps_pure (Response.staysPlain_ofJson (by decide) _)
  | purge =>
    simp only [handler, Handlers.purge, Request.currentUser]
    cases req.user with
    | none => exact Run.keeps_pure (Response.staysPlain_ofJson (by decide) _)
    | some u =>
      exact (Run.keeps_note _).bind fun _ _ ↦
        Run.keeps_pure (Response.staysPlain_ofStatus (by decide))

theorem keeps_served (r : Route) (req : Request) :
    (site.served around r req : Run σ Response).Keeps plainOctets Response.StaysPlain := by
  have hhandler : ∀ (r : Route) (req : Request),
      (site.handler r req : Run σ Response).Keeps plainOctets Response.StaysPlain :=
    site.keeps_handler
  cases r with
  | health => exact hhandler .health req
  | ready => exact hhandler .ready req
  | stats => exact Service.keeps_cached _ (site.keeps_stats req)
  | me => exact Service.keeps_gated around .required site.settings.authCookie req (hhandler .me)
  | session =>
    exact Service.keeps_gated around .optional site.settings.authCookie req (hhandler .session)
  | purge =>
    exact Service.keeps_gated around .admin site.settings.authCookie req fun req ↦
      Service.keeps_invalidating site.settings.purgePattern (hhandler .purge req)

/-- **Behind its limiter a site answers plainly**, and what it stores are plain entries. -/
theorem keeps_shared (route : Option Route) (req : Request) :
    (site.shared around route req : Run σ Response).Keeps plainOctets Response.StaysPlain := by
  refine Service.keeps_sharedWith _ ?_
  cases route with
  | none => exact Run.keeps_pure (Response.staysPlain_ofStatus (by decide))
  | some r =>
    simp only [dispatch]
    split_ifs
    · exact site.keeps_served around r req
    · exact Run.keeps_pure (Response.staysPlain_ofStatus (by decide))

theorem keeps_guarded (route : Option Route) (req : Request) :
    (site.guarded around route req : Run σ Response).Keeps plainOctets
      fun r ↦ r.body.CopiesPlain := by
  have hshared := site.keeps_shared (σ := σ) around route req
  rcases hlimiter : site.limiter with _ | l <;> rw [guarded, hlimiter]
  · exact hshared.imp fun r hr ↦ hr.copies
  · exact Service.keeps_limited l hshared

theorem keeps_answer (req : Request) :
    (site.answer around req : Run σ Response).Keeps plainOctets fun r ↦ r.body.CopiesPlain := by
  intro w hw
  obtain ⟨hstore, hcopies⟩ := site.keeps_guarded around (Route.ofPath? req.target.path)
    (site.known around req w) (identifiedIn around w) hw
  rw [answer_eq]
  refine ⟨hstore, ?_⟩
  rcases body_dressed req (idIn around w) _ with hbody | ⟨-, hbody⟩ <;> rw [hbody]
  · exact hcopies
  · exact trivial

end Site

/-! ## Reachable states -/

namespace Site.Serving

/-- The states that sites come to which share a store. Each step is one of any site, with users and
tokens as they are at the time. In between, anything may become of the store that does not add an
entry to it: keys expire or are deleted, operations begin to fail or to succeed, counters are
counted, and others write what is no entry. -/
inductive Reachable : Serving σ → Prop
  | start {store : σ} (hstore : octets store ⊆ noEntry) (now : Instant) :
      Reachable (Serving.start store now)
  | step {s : Serving σ} (h : Reachable s) (site : Site) (around : Surroundings) (st : Step) :
      Reachable (s.step site around st)
  | meanwhile {s : Serving σ} (h : Reachable s) {store : σ}
      (hstore : octets store ⊆ octets s.world.store ∪ noEntry) :
      Reachable { s with world := { s.world with store } }

/-- Everything stored, or still to be stored, is plain. -/
structure IsPlain (s : Serving σ) : Prop where
  store_subset : octets s.world.store ⊆ plainOctets
  bodies : ∀ b ∈ s.bodies, b.CopiesPlain

theorem IsPlain.step {s : Serving σ} (h : s.IsPlain) (site : Site) (around : Surroundings)
    (st : Step) : (s.step site around st).IsPlain := by
  cases st with
  | wait d => exact ⟨h.store_subset, h.bodies⟩
  | request req =>
    obtain ⟨hstore, hcopies⟩ := site.keeps_answer around req s.world h.store_subset
    exact ⟨hstore, List.forall_mem_append.mpr
      ⟨h.bodies, List.forall_mem_singleton.mpr hcopies⟩⟩
  | poll place =>
    rcases hplace : s.bodies[place]? with _ | b <;> simp only [Serving.step, hplace]
    · exact h
    · have hb := h.bodies b (List.mem_of_getElem? hplace)
      obtain ⟨hstore, hrest⟩ := Body.keeps_poll hb s.world h.store_subset
      refine ⟨hstore, fun b' hb' ↦ ?_⟩
      rcases List.mem_or_eq_of_mem_set hb' with hb' | rfl
      · exact h.bodies b' hb'
      · exact hrest
  | drop place =>
    rcases hplace : s.bodies[place]? with _ | b <;> simp only [Serving.step, hplace]
    · exact h
    · have hb := h.bodies b (List.mem_of_getElem? hplace)
      refine ⟨(Body.keeps_discard hb s.world h.store_subset).1, fun b' hb' ↦ ?_⟩
      rcases List.mem_or_eq_of_mem_set hb' with hb' | rfl
      · exact h.bodies b' hb'
      · exact trivial

/-- **In reachable states everything is plain.** -/
theorem Reachable.isPlain {s : Serving σ} (h : s.Reachable) : s.IsPlain := by
  induction h with
  | start hstore now => exact ⟨hstore.trans noEntry_subset_plainOctets, nofun⟩
  | step _ site around st ih => exact ih.step site around st
  | meanwhile _ hstore ih =>
    exact ⟨hstore.trans (Set.union_subset ih.store_subset noEntry_subset_plainOctets), ih.bodies⟩

/-- A run from a store without entries is a way to a reachable state. -/
theorem reachable_run (site : Site) (around : Surroundings) {store : σ}
    (hstore : octets store ⊆ noEntry) (now : Instant) (steps : List Step) :
    (run site around store now steps).Reachable := by
  induction steps using List.reverseRecOn with
  | nil => exact .start hstore now
  | append_singleton steps st ih =>
    rw [run, List.foldl_append]
    exact .step ih site around st

end Site.Serving

end

end Gatehouse
