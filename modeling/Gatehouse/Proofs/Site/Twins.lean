import Mathlib.Data.List.Forall2
import Gatehouse.Proofs.Site.Outcome

/-!
# Two runs side by side

The same requests are sent to two sites that are set up alike. Their stores may be of different
kinds, and what goes wrong behind one of them may go wrong behind the other for another reason.
Clients cannot tell the two apart if the stores, the validators and the directories *answer alike*:
they give the same, or they fail both, for whatever reasons.

Two stores answer alike as long as some link between their states lasts, `Site.Links`. Such a link
has to hold for the calls that the site makes and for no others: counters are counters of clients,
values are responses, and nothing is deleted but by the pattern of the purge.

## What is the same and what is not

Behind the outermost layers the responses of the two sites are equal, and their bodies carry the
same copies: `Site.twins_guarded`. The outermost layers put an id on a response, and the two sites
draw their ids as they like. So whatever relates a response with one id to the same response with
another relates what clients are told in the two runs, step by step: this is
**`Site.Serving.Linked.transcript_alike`**.
-/

namespace Gatehouse

/-! ## Answers that are alike -/

section

variable {ε ε' α β : Type}

/-- The same is given, or both fail, and the failures may differ as described. -/
inductive SameBut (differ : ε → ε' → Prop) : Except ε α → Except ε' α → Prop
  | ok (a : α) : SameBut differ (.ok a) (.ok a)
  | error {e : ε} {e' : ε'} (h : differ e e') : SameBut differ (.error e) (.error e')

/-- The same is given, or both fail for whatever reasons. -/
abbrev SameButReasons : Except ε α → Except ε' α → Prop := SameBut fun _ _ ↦ True

namespace SameBut

variable {δ δ' : Type} {differ : ε → ε' → Prop} {differ' : δ → δ' → Prop}
  {a : Except ε α} {b : Except ε' α}

theorem refl {differ : ε → ε → Prop} (h : ∀ e, differ e e) (a : Except ε α) :
    SameBut differ a a := by
  cases a with
  | ok a => exact .ok a
  | error e => exact .error (h e)

theorem mapError {f : ε → δ} {g : ε' → δ'} (h : SameBut differ a b)
    (hf : ∀ e e', differ e e' → differ' (f e) (g e')) :
    SameBut differ' (a.mapError f) (b.mapError g) := by
  cases h with
  | ok a => exact .ok a
  | error he => exact .error (hf _ _ he)

theorem bind {f : α → Except ε β} {g : α → Except ε' β} (h : SameBut differ a b)
    (hf : ∀ a, SameBut differ (f a) (g a)) : SameBut differ (a >>= f) (b >>= g) := by
  cases h with
  | ok a => exact hf a
  | error he => exact .error he

end SameBut

end

/-- Clients are told the same about the two failures. -/
structure Failure.ToldAlike (f f' : Failure) : Prop where
  status_eq : f.status = f'.status
  body_eq : f.body = f'.body

theorem Failure.ToldAlike.code_eq {f f' : Failure} (h : f.ToldAlike f') : f.code = f'.code :=
  Option.some.inj (congrArg ErrorBody.code h.body_eq)

theorem Failure.ToldAlike.ofFailure_eq {f f' : Failure} (h : f.ToldAlike f') :
    Response.ofFailure f = Response.ofFailure f' := by
  rw [Response.ofFailure, Response.ofFailure, h.status_eq, h.body_eq]

/-- Two tokens that are not accepted have both expired, or neither has. -/
def TokenError.Alike (e e' : TokenError) : Prop := e = .expired ↔ e' = .expired

/-- What two runs find answers alike, whatever the reasons for which it fails. -/
structure Surroundings.Alike (around around' : Surroundings) : Prop where
  validate : ∀ now token,
    SameBut TokenError.Alike (around.validate now token) (around'.validate now token)
  findUser : ∀ id, SameButReasons (around.findUser id) (around'.findUser id)

theorem Failure.ToldAlike.refl (f : Failure) : f.ToldAlike f := ⟨rfl, rfl⟩

theorem TokenError.Alike.refl (e : TokenError) : e.Alike e := Iff.rfl

theorem Surroundings.Alike.refl (around : Surroundings) : around.Alike around where
  validate _ _ := .refl TokenError.Alike.refl _
  findUser _ := .refl (fun _ ↦ trivial) _

theorem TokenError.Alike.toldAlike {e e' : TokenError} (h : e.Alike e') :
    e.failure.ToldAlike e'.failure := by
  cases e with
  | expired => exact h.mp rfl ▸ .refl _
  | invalid reason =>
    cases e' with
    | expired => exact absurd (h.mpr rfl) nofun
    | invalid reason' => exact ⟨rfl, rfl⟩

/-- Whatever the reason for which a user could not be looked up, clients are told the same. -/
theorem LookupError.toldAlike (e e' : LookupError) : e.failure.ToldAlike e'.failure := by
  cases e <;> cases e' <;> exact ⟨rfl, rfl⟩

section

variable {around around' : Surroundings}

theorem Headers.sameBut_authenticate (haround : around.Alike around') (h : Headers)
    (cookie : String) (now : Instant) :
    SameBut Failure.ToldAlike (h.authenticate around cookie now)
      (h.authenticate around' cookie now) := by
  refine (SameBut.refl Failure.ToldAlike.refl _).bind fun token ↦ ?_
  refine ((haround.validate now token).mapError fun _ _ h ↦ h.toldAlike).bind fun claims ↦ ?_
  exact (haround.findUser claims.sub).mapError fun _ _ _ ↦ LookupError.toldAlike _ _

theorem Gate.sameBut_letThrough (gate : Gate) {who who' : Except Failure User}
    (h : SameBut Failure.ToldAlike who who') :
    SameBut Failure.ToldAlike (gate.letThrough who) (gate.letThrough who') := by
  cases h with
  | ok u => exact .refl .refl _
  | error hf =>
    cases gate with
    | required | admin => exact .error hf
    | optional => exact .ok none

/-- A gate reports a failure although it lets the request through, or it does not. -/
theorem Gate.rel_tolerated? (gate : Gate) {who who' : Except Failure User}
    (h : SameBut Failure.ToldAlike who who') :
    Option.Rel Failure.ToldAlike (gate.tolerated? who) (gate.tolerated? who') := by
  cases h with
  | ok u => cases gate <;> exact .none
  | @error f f' hf =>
    cases gate with
    | required | admin => exact .none
    | optional =>
      have hcode : isMissing f = isMissing f' := by rw [isMissing, isMissing, hf.code_eq]
      rw [tolerated?, tolerated?, hcode]
      split_ifs
      · exact .none
      · exact .some hf

end

/-! ## Linked stores -/

/-- How the states of two stores hang together at an instant. -/
abbrev Link (σ τ : Type) := Instant → σ → τ → Prop

section

variable {σ τ α β γ δ : Type}

/-- Two calls are answered alike, and the stores hang together afterwards. -/
def Link.Answers (R : Link σ τ) (now : Instant) (a : Except StoreError α × σ)
    (b : Except StoreError α × τ) : Prop :=
  SameButReasons a.1 b.1 ∧ R now a.2 b.2

theorem Link.Answers.ok {R : Link σ τ} {now : Instant} {a b : α} {s : σ} {t : τ} (hab : a = b)
    (h : R now s t) : R.Answers now (.ok a, s) (.ok b, t) := ⟨hab ▸ .ok a, h⟩

/-- Two states of runs hang together. What is in the journal is of no account. -/
structure World.Linked (R : Link σ τ) (w : World σ) (v : World τ) : Prop where
  now_eq : w.now = v.now
  drawn_eq : w.drawn = v.drawn
  stores : R w.now w.store v.store

namespace Run

variable {R : Link σ τ}

/-- From states that hang together, the two runs come to such states, and what they give is as
described. -/
def Alike (R : Link σ τ) (gives : α → β → Prop) (r : Run σ α) (r' : Run τ β) : Prop :=
  ∀ w v, World.Linked R w v → World.Linked R (r w).2 (r' v).2 ∧ gives (r w).1 (r' v).1

/-- The two runs give the same. -/
abbrev Same (R : Link σ τ) (r : Run σ α) (r' : Run τ α) : Prop := Alike R Eq r r'

variable {gives : α → β → Prop} {gives' : γ → δ → Prop}

theorem alike_pure {a : α} {b : β} (h : gives a b) :
    Alike R gives (pure a : Run σ α) (pure b : Run τ β) := fun _ _ hw ↦ ⟨hw, h⟩

theorem same_pure (a : α) : Same R (pure a : Run σ α) (pure a : Run τ α) := alike_pure rfl

theorem Alike.bind {r : Run σ α} {r' : Run τ β} {f : α → Run σ γ} {g : β → Run τ δ}
    (hr : Alike R gives r r') (hf : ∀ a b, gives a b → Alike R gives' (f a) (g b)) :
    Alike R gives' (r >>= f) (r' >>= g) := fun w v hw ↦
  hf _ _ (hr w v hw).2 _ _ (hr w v hw).1

theorem Same.then {r : Run σ α} {r' : Run τ α} {f : α → Run σ γ} {g : α → Run τ δ}
    (hr : Same R r r') (hf : ∀ a, Alike R gives' (f a) (g a)) :
    Alike R gives' (r >>= f) (r' >>= g) :=
  hr.bind fun a _ hab ↦ hab ▸ hf a

theorem same_now : Same R (now : Run σ Instant) (now : Run τ Instant) := fun _ _ hw ↦
  ⟨hw, hw.now_eq⟩

theorem same_note (n n' : Note) : Same R (note n : Run σ Unit) (note n' : Run τ Unit) :=
  fun _ _ hw ↦ ⟨⟨hw.now_eq, hw.drawn_eq, hw.stores⟩, rfl⟩

theorem same_count (m m' : Metric) : Same R (count m : Run σ Unit) (count m' : Run τ Unit) :=
  same_note _ _

theorem same_log (e e' : Event) : Same R (log e : Run σ Unit) (log e' : Run τ Unit) :=
  same_note _ _

theorem alike_call {op : StoreOp} {subject : String} {access : Instant → Access σ α}
    {access' : Instant → Access τ α}
    (h : ∀ now s t, R now s t → R.Answers now (access now s) (access' now t)) :
    Alike R SameButReasons (call op subject access) (call op subject access') := by
  rintro ⟨s, now, drawn, journal⟩ ⟨t, _, _, journal'⟩ ⟨rfl, rfl, hstores⟩
  obtain ⟨hanswer, hstores⟩ := h now s t hstores
  exact ⟨⟨rfl, rfl, hstores⟩, hanswer⟩

end Run

end

/-! ## What a site asks of its store -/

section

variable {σ τ : Type} [CounterStore σ] [CacheStore σ] [CounterStore τ] [CacheStore τ]

/-- The link lasts, and as long as it does the stores answer alike what the site asks them. -/
structure Site.Links (site : Site) (R : Link σ τ) : Prop where
  lasts : ∀ {now later s t}, R now s t → now ≤ later → R later s t
  increment : ∀ {now s t}, R now s t → ∀ l, site.limiter = some l → ∀ client, R.Answers now
    (CounterStore.increment now (l.key client) l.window l.policy s)
    (CounterStore.increment now (l.key client) l.window l.policy t)
  ttl : ∀ {now s t}, R now s t → ∀ l, site.limiter = some l → ∀ client, R.Answers now
    (CounterStore.ttl now (l.key client) s) (CounterStore.ttl now (l.key client) t)
  get : ∀ {now s t}, R now s t → ∀ key, site.IsCacheKey key → R.Answers now
    (CacheStore.get now key s) (CacheStore.get now key t)
  set : ∀ {now s t}, R now s t → ∀ key, site.IsCacheKey key → ∀ value ttl, R.Answers now
    (CacheStore.set now key value ttl s) (CacheStore.set now key value ttl t)
  deleteByPattern : ∀ {now s t}, R now s t → R.Answers now
    (CacheStore.deleteByPattern now site.settings.purgePattern s)
    (CacheStore.deleteByPattern now site.settings.purgePattern t)
  ping : ∀ {now s t}, R now s t → R.Answers now (CacheStore.ping now s) (CacheStore.ping now t)

variable {site : Site} {R : Link σ τ}

/-! ## Bodies -/

open Cache in
theorem Cache.Capture.same_finish (hR : site.Links R) {c : Capture} (hc : site.IsCacheKey c.key) :
    Run.Same R (c.finish : Run σ Unit) (c.finish : Run τ Unit) := by
  refine (Run.alike_call fun _ _ _ h ↦ hR.set h c.key hc _ _).bind fun answer answer' h ↦ ?_
  cases h with
  | ok => exact Run.same_count _ _
  | error => exact (Run.same_count _ _).then fun _ ↦ Run.same_log _ _

open Cache in
omit [CounterStore σ] [CacheStore σ] [CounterStore τ] [CacheStore τ] in
theorem Cache.Capture.same_record (c : Capture) (data : Bytes) :
    Run.Same R (c.record data : Run σ _) (c.record data : Run τ _) := by
  rw [record, record]
  split_ifs
  · exact (Run.same_count _ _).then fun _ ↦ Run.same_pure _
  · exact Run.same_pure _

theorem Body.same_poll (hR : site.Links R) {b : Body} (hb : b.CopiesTo site.IsCacheKey) :
    Run.Same R (b.poll : Run σ _) (b.poll : Run τ _) := by
  induction b with
  | full data => cases data <;> exact Run.same_pure _
  | framed frames said announced => cases frames <;> exact Run.same_pure _
  | copied inner copy ih =>
    obtain ⟨hcopy, hinner⟩ := hb
    refine (ih hinner).then fun (frame, rest) ↦ ?_
    cases copy with
    | none => rcases frame with _ | data | trailers | reason <;> exact Run.same_pure _
    | some c =>
      rcases frame with _ | data | trailers | reason
      · exact (Cache.Capture.same_finish hR (hcopy c rfl)).then fun _ ↦ Run.same_pure _
      · exact (c.same_record data).then fun _ ↦ Run.same_pure _
      · exact Run.same_pure _
      · exact Run.same_pure _

theorem Body.same_discard (hR : site.Links R) {b : Body} (hb : b.CopiesTo site.IsCacheKey) :
    Run.Same R (b.discard : Run σ Unit) (b.discard : Run τ Unit) := by
  induction b with
  | full data | framed frames said announced => exact Run.same_pure _
  | copied inner copy ih =>
    obtain ⟨hcopy, hinner⟩ := hb
    cases copy with
    | none => exact ih hinner
    | some c =>
      rw [discard, discard]
      split_ifs
      · exact (Cache.Capture.same_finish hR (hcopy c rfl)).then fun _ ↦ ih hinner
      · exact ih hinner

/-! ## Checks -/

/-- A decision is the same whatever the reason for which the time left is not known. -/
theorem Limiter.decide_eq (l : Limiter) (now : Instant) (n : Nat)
    {left left' : Except StoreError (Option Duration)} (h : SameButReasons left left') :
    l.decide now n left = l.decide now n left' := by
  cases h with
  | ok | error => rfl

theorem Limiter.alike_check (hR : site.Links R) {l : Limiter} (hlimiter : site.limiter = some l)
    (client : String) : Run.Alike R SameButReasons
      (l.check client : Run σ (Except StoreError Decision)) (l.check client : Run τ _) := by
  refine (Run.alike_call fun _ _ _ h ↦ hR.increment h l hlimiter client).bind
    fun answer answer' h ↦ ?_
  cases h with
  | error => exact Run.alike_pure (.error trivial)
  | ok n =>
    refine (Run.alike_call fun _ _ _ h ↦ hR.ttl h l hlimiter client).bind fun left left' h ↦ ?_
    refine Run.same_now.then fun now ↦ Run.alike_pure ?_
    exact l.decide_eq now n h ▸ .ok _

/-! ## Services -/

/-- The same request, which the log may know under another id. -/
def Request.Akin (req req' : Request) : Prop :=
  ∃ context, req' = { req with context } ∧
    (Context.of { req with context }).clientIp = (Context.of req).clientIp

/-- The two services give the same responses to the same requests. -/
def Service.Twins (R : Link σ τ) (s : Service σ) (s' : Service τ) : Prop :=
  ∀ req req' : Request, req.Akin req' → Run.Same R (s req) (s' req')

namespace Service

omit [CounterStore σ] [CacheStore σ] [CounterStore τ] [CacheStore τ] in
theorem same_reject (operation operation' : String) (who who' : Context) {f f' : Failure}
    (h : f.ToldAlike f') :
    Run.Same R (reject operation who f : Run σ _) (reject operation' who' f' : Run τ _) :=
  (Run.same_log _ _).then fun _ ↦ Run.alike_pure h.ofFailure_eq

theorem same_lookup? (hR : site.Links R) {key : String} (hkey : site.IsCacheKey key) :
    Run.Same R (lookup? key : Run σ _) (lookup? key : Run τ _) := by
  refine (Run.alike_call fun _ _ _ h ↦ hR.get h key hkey).bind fun answer answer' h ↦ ?_
  cases h with
  | error => exact (Run.same_count _ _).then fun _ ↦ (Run.same_log _ _).then fun _ ↦
      Run.same_pure _
  | ok found =>
    cases found with
    | none => exact (Run.same_count _ _).then fun _ ↦ Run.same_pure _
    | some raw =>
      cases hrestore : Cache.Entry.restore raw with
      | error e =>
        simp only [hrestore]
        exact (Run.same_count _ _).then fun _ ↦ (Run.same_log _ _).then fun _ ↦ Run.same_pure _
      | ok response =>
        simp only [hrestore]
        exact (Run.same_count _ _).then fun _ ↦ Run.same_pure _

omit [CounterStore σ] [CacheStore σ] [CounterStore τ] [CacheStore τ] in
theorem same_capturing (settings : CacheSettings) (key : String) (r : Response) :
    Run.Same R (capturing settings key r : Run σ _) (capturing settings key r : Run τ _) := by
  rw [capturing, capturing]
  split_ifs
  · exact Run.same_pure _
  · exact (Run.same_count _ _).then fun _ ↦ Run.same_pure _
  · exact (Run.same_count _ _).then fun _ ↦ Run.same_pure _
  · exact Run.same_pure _

theorem same_invalidation (hR : site.Links R) :
    Run.Same R (invalidation site.settings.purgePattern : Run σ Unit)
      (invalidation site.settings.purgePattern : Run τ Unit) := by
  refine (Run.alike_call fun _ _ _ h ↦ hR.deleteByPattern h).bind fun answer answer' h ↦ ?_
  cases h with
  | ok => exact Run.same_count _ _
  | error => exact (Run.same_count _ _).then fun _ ↦ Run.same_log _ _

namespace Twins

variable {s : Service σ} {s' : Service τ}

theorem cached (hR : site.Links R) (h : Twins R s s') :
    Twins R (cached site.cacheSettings s) (cached site.cacheSettings s') := by
  rintro req _ ⟨context, rfl, hclient⟩
  rw [Service.cached, Service.cached]
  have hinner := h req _ ⟨context, rfl, hclient⟩
  split_ifs
  · exact hinner
  · refine (same_lookup? hR ⟨req, rfl⟩).then fun found ↦ ?_
    cases found with
    | some r => exact Run.same_pure r
    | none => exact hinner.then fun r ↦ same_capturing _ _ r

theorem invalidating (hR : site.Links R) (h : Twins R s s') :
    Twins R (invalidating site.settings.purgePattern s)
      (invalidating site.settings.purgePattern s') := fun req req' hreq ↦
  (h req req' hreq).then fun r ↦ (same_invalidation hR).then fun _ ↦ Run.same_pure r

omit [CounterStore σ] [CacheStore σ] [CounterStore τ] [CacheStore τ] in
theorem gated {around around' : Surroundings} (haround : around.Alike around') (gate : Gate)
    (cookie : String) (h : Twins R s s') :
    Twins R (gated around gate cookie s) (gated around' gate cookie s') := by
  rintro req _ ⟨context, rfl, hclient⟩
  have hunknown := h req _ ⟨context, rfl, hclient⟩
  have hknown (u : User) := h { req with user := some u } _ ⟨context, rfl, hclient⟩
  rw [Service.gated, Service.gated]
  refine Run.same_now.then fun now ↦ ?_
  have hwho := Headers.sameBut_authenticate haround req.headers cookie now
  have hlet := gate.sameBut_letThrough hwho
  have htolerated := gate.rel_tolerated? hwho
  dsimp only
  generalize gate.letThrough (req.headers.authenticate around cookie now) = outcome,
    gate.letThrough (req.headers.authenticate around' cookie now) = outcome',
    gate.tolerated? (req.headers.authenticate around cookie now) = report,
    gate.tolerated? (req.headers.authenticate around' cookie now) = report' at hlet htolerated ⊢
  -- what is reported is only noted, and what comes of the request is the same
  have hreported {r : Run σ Response} {r' : Run τ Response} (hr : Run.Same R r r')
      (f f' : Failure) : Run.Same R
        (do Run.count (.authFailure gate f.code); Run.log (.anonymous f); r)
        (do Run.count (.authFailure gate f'.code); Run.log (.anonymous f'); r') :=
    (Run.same_count _ _).then fun _ ↦ (Run.same_log _ _).then fun _ ↦ hr
  cases hlet with
  | @error f f' hf =>
    have hrefused : Run.Same R
        (do Run.count (.authFailure gate f.code); reject gate.operation (Context.of req) f)
        (do Run.count (.authFailure gate f'.code)
            reject gate.operation (Context.of { req with context }) f') :=
      (Run.same_count _ _).then fun _ ↦ same_reject _ _ _ _ hf
    cases htolerated with
    | none => exact hrefused
    | some => exact hreported hrefused _ _
  | ok user =>
    cases htolerated with
    | none =>
      cases user with
      | none => exact hunknown
      | some u => exact hknown u
    | some =>
      cases user with
      | none => exact hreported hunknown _ _
      | some u => exact hreported (hknown u) _ _

omit [CounterStore σ] [CacheStore σ] [CounterStore τ] [CacheStore τ] in
theorem sharedWith (origins : Origins) (h : Twins R s s') :
    Twins R (sharedWith origins s) (sharedWith origins s') := by
  rintro req _ ⟨context, rfl, hclient⟩
  have hinner := h req _ ⟨context, rfl, hclient⟩
  rw [Service.sharedWith, Service.sharedWith]
  split_ifs
  · exact Run.same_pure _
  · exact hinner.then fun r ↦ Run.same_pure _

theorem limited (hR : site.Links R) {l : Limiter} (hlimiter : site.limiter = some l)
    (h : Twins R s s') : Twins R (limited l s) (limited l s') := by
  rintro req _ ⟨context, rfl, hclient⟩
  have hinner := h req _ ⟨context, rfl, hclient⟩
  rw [Service.limited, Service.limited]
  simp only [hclient]
  refine (l.alike_check hR hlimiter _).bind fun verdict verdict' hverdict ↦ ?_
  cases hverdict with
  | error => exact (Run.same_count _ _).then fun _ ↦ same_reject _ _ _ _ ⟨rfl, rfl⟩
  | ok d =>
    cases hadmitted : d.admitted with
    | true =>
      simp only [hadmitted]
      exact hinner.then fun r ↦ Run.same_pure _
    | false =>
      simp only [hadmitted]
      exact (Run.same_count _ _).then fun _ ↦ (same_reject _ _ _ _ (.refl _)).then fun r ↦
        Run.same_now.then fun now ↦ Run.same_pure _

end Twins

end Service

/-! ## Sites -/

namespace Site

variable {around around' : Surroundings}

theorem twins_handler (hR : site.Links R) (r : Route) :
    Service.Twins R (site.handler r : Service σ) (site.handler r : Service τ) := by
  rintro req _ ⟨context, rfl, hclient⟩
  cases r with
  | health | stats => exact Run.same_now.then fun now ↦ Run.same_pure _
  | ready =>
    refine (Run.alike_call fun _ _ _ h ↦ hR.ping h).bind fun answer answer' h ↦ ?_
    cases h with
    | ok => exact Run.same_pure _
    | error => exact (Run.same_log _ _).then fun _ ↦ Run.same_pure _
  | me =>
    simp only [handler, Handlers.me, Request.currentUser]
    cases req.user with
    | none | some u => exact Run.same_pure _
  | session => exact Run.same_pure _
  | purge =>
    simp only [handler, Handlers.purge, Request.currentUser]
    cases req.user with
    | none => exact Run.same_pure _
    | some u => exact (Run.same_log _ _).then fun _ ↦ Run.same_pure _

theorem twins_served (hR : site.Links R) (haround : around.Alike around') (r : Route) :
    Service.Twins R (site.served around r : Service σ) (site.served around' r : Service τ) := by
  have hhandler := twins_handler hR r
  cases r with
  | health | ready => exact hhandler
  | stats => exact hhandler.cached hR
  | me => exact hhandler.gated haround .required site.settings.authCookie
  | session => exact hhandler.gated haround .optional site.settings.authCookie
  | purge => exact (hhandler.invalidating hR).gated haround .admin site.settings.authCookie

theorem twins_dispatch (hR : site.Links R) (haround : around.Alike around') (route : Option Route) :
    Service.Twins R (site.dispatch around route : Service σ)
      (site.dispatch around' route : Service τ) := by
  rintro req _ ⟨context, rfl, hclient⟩
  cases route with
  | none => exact Run.same_pure _
  | some r =>
    rw [dispatch, dispatch]
    split_ifs
    · exact twins_served hR haround r req _ ⟨context, rfl, hclient⟩
    · exact Run.same_pure _

/-- **Behind the outermost layers the responses are the same.** -/
theorem twins_guarded (hR : site.Links R) (haround : around.Alike around') (route : Option Route) :
    Service.Twins R (site.guarded around route : Service σ)
      (site.guarded around' route : Service τ) := by
  have hshared := (twins_dispatch hR haround route).sharedWith
    (Origins.ofTexts site.settings.corsOrigins)
  rw [guarded, guarded]
  cases hlimiter : site.limiter with
  | none => exact hshared
  | some l => exact hshared.limited hR hlimiter

omit [CounterStore σ] [CacheStore σ] [CounterStore τ] [CacheStore τ] in
theorem akin_known (site : Site) (around around' : Surroundings) (req : Request) (w : World σ)
    (v : World τ) : (site.known around req w).Akin (site.known around' req v) := by
  have hclient (id : String) : (Context.of { routed req with
      context := some (.capture (routed req) id site.trust) }).clientIp
        = (routed req).clientIp site.trust := rfl
  exact ⟨some (.capture (routed req) (idIn around' v) site.trust), rfl,
    (hclient _).trans (hclient _).symm⟩

/-- The id on a response does not matter to its body. -/
theorem body_dressed_eq (req : Request) (id id' : String) (r : Response) :
    (dressed req id r).body = (dressed req id' r).body := by
  rw [dressed, dressed]
  split
  · rfl
  · split <;> rfl

/-- Each of the two sites puts its own id on the same response. -/
theorem exists_answer (hR : site.Links R) (haround : around.Alike around') (req : Request)
    {w : World σ} {v : World τ} (hw : World.Linked R w v) :
    World.Linked R (site.answer around req w).2 (site.answer around' req v).2 ∧
      ∃ r, (site.answer around req w).1 = dressed req (idIn around w) r ∧
        (site.answer around' req v).1 = dressed req (idIn around' v) r := by
  have hidentified : World.Linked R (identifiedIn around w) (identifiedIn around' v) :=
    ⟨hw.now_eq, congrArg (· + 1) hw.drawn_eq, hw.stores⟩
  obtain ⟨hlinked, hsame⟩ := twins_guarded hR haround (Route.ofPath? req.target.path) _ _
    (akin_known site around around' req w v) _ _ hidentified
  rw [answer_eq, answer_eq]
  exact ⟨⟨hlinked.now_eq, hlinked.drawn_eq, hlinked.stores⟩, _, rfl,
    congrArg (dressed req (idIn around' v)) hsame.symm⟩

end Site

/-! ## What clients are told -/

namespace Site.Serving

/-- What a client is told in a step. -/
inductive Told where
  | nothing
  | response (r : Response)
  | frame (f : Option Frame)

/-- The same is told, and responses are the same but for what is given. -/
inductive Told.Alike (alike : Response → Response → Prop) : Told → Told → Prop
  | nothing : Alike alike .nothing .nothing
  | response {r r' : Response} (h : alike r r') : Alike alike (.response r) (.response r')
  | frame (f : Option Frame) : Alike alike (.frame f) (.frame f)

theorem Told.Alike.eq {a b : Told} (h : Alike Eq a b) : a = b := by
  cases h with
  | nothing | frame => rfl
  | response h => rw [h]

/-- What is told in one step. Nobody hears of a body that is not there. -/
def told (site : Site) (around : Surroundings) (s : Serving σ) : Step → Told
  | .wait _ => .nothing
  | .request req => .response (site.answer around req s.world).1
  | .poll place =>
    match s.bodies[place]? with
    | none => .nothing
    | some b => .frame (b.poll s.world).1.1
  | .drop _ => .nothing

/-- What clients are told in a run of steps. -/
def transcript (site : Site) (around : Surroundings) (s : Serving σ) : List Step → List Told
  | [] => []
  | st :: steps => s.told site around st :: (s.step site around st).transcript site around steps

/-- Two states in which nobody can tell the two sites apart. -/
structure Linked (site : Site) (R : Link σ τ) (s : Serving σ) (t : Serving τ) : Prop where
  worlds : World.Linked R s.world t.world
  bodies_eq : s.bodies = t.bodies
  copiesTo : ∀ b ∈ s.bodies, b.CopiesTo site.IsCacheKey

variable {around around' : Surroundings} {s : Serving σ} {t : Serving τ}

/-- **One step.** Clients are told the same, and will be. -/
theorem Linked.step (alike : Response → Response → Prop) (hR : site.Links R)
    (haround : around.Alike around')
    (halike : ∀ req n r, alike (dressed req (Uuid.ofRandom (around.random n)) r)
      (dressed req (Uuid.ofRandom (around'.random n)) r))
    (h : Linked site R s t) (st : Step) :
    Told.Alike alike (s.told site around st) (t.told site around' st) ∧
      Linked site R (s.step site around st) (t.step site around' st) := by
  have hcopies := (leads_step around h.copiesTo st).2
  suffices hstep : Told.Alike alike (s.told site around st) (t.told site around' st) ∧
      World.Linked R (s.step site around st).world (t.step site around' st).world ∧
      (s.step site around st).bodies = (t.step site around' st).bodies from
    ⟨hstep.1, hstep.2.1, hstep.2.2, hcopies⟩
  cases st with
  | wait d =>
    have hnow : s.world.now + d = t.world.now + d := congrArg (· + d) h.worlds.now_eq
    exact ⟨.nothing, ⟨hnow, h.worlds.drawn_eq, hR.lasts h.worlds.stores (Nat.le_add_right _ _)⟩,
      h.bodies_eq⟩
  | request req =>
    obtain ⟨hworlds, r, hanswer, hanswer'⟩ := exists_answer hR haround req h.worlds
    have hresponses : alike (site.answer around req s.world).1
        (site.answer around' req t.world).1 := by
      rw [hanswer, hanswer', idIn, idIn, ← h.worlds.drawn_eq]
      exact halike req _ r
    have hbody : (site.answer around req s.world).1.body
        = (site.answer around' req t.world).1.body := by
      rw [hanswer, hanswer', body_dressed_eq]
    exact ⟨.response hresponses, hworlds,
      congrArg₂ (fun bodies b ↦ bodies ++ [b]) h.bodies_eq hbody⟩
  | poll place =>
    simp only [told, Serving.step, ← h.bodies_eq]
    rcases hplace : s.bodies[place]? with _ | b
    · exact ⟨.nothing, h.worlds, h.bodies_eq⟩
    · have hb := h.copiesTo b (List.mem_of_getElem? hplace)
      obtain ⟨hworlds, hpoll⟩ := Body.same_poll hR hb _ _ h.worlds
      have htold : Told.Alike alike (.frame (b.poll s.world).1.1) (.frame (b.poll t.world).1.1) :=
        hpoll ▸ .frame _
      exact ⟨htold, hworlds,
        congrArg (fun answer : Option Frame × Body ↦ s.bodies.set place answer.2) hpoll⟩
  | drop place =>
    simp only [told, Serving.step, ← h.bodies_eq]
    rcases hplace : s.bodies[place]? with _ | b
    · exact ⟨.nothing, h.worlds, h.bodies_eq⟩
    · have hb := h.copiesTo b (List.mem_of_getElem? hplace)
      exact ⟨.nothing, (Body.same_discard hR hb _ _ h.worlds).1, rfl⟩

/-- In whatever state a run leads to, nobody can tell the two sites apart. -/
theorem Linked.run (hR : site.Links R) (haround : around.Alike around')
    (h : Linked site R s t) (steps : List Step) :
    Linked site R (steps.foldl (Serving.step site around) s)
      (steps.foldl (Serving.step site around') t) := by
  induction steps generalizing s t with
  | nil => exact h
  | cons st steps ih =>
    exact ih (h.step (fun _ _ ↦ True) hR haround (fun _ _ _ ↦ trivial) st).2

/-- **A whole run.** Two sites whose stores hang together tell clients the same. -/
theorem Linked.transcript_alike (alike : Response → Response → Prop) (hR : site.Links R)
    (haround : around.Alike around')
    (halike : ∀ req n r, alike (dressed req (Uuid.ofRandom (around.random n)) r)
      (dressed req (Uuid.ofRandom (around'.random n)) r))
    (h : Linked site R s t) (steps : List Step) :
    List.Forall₂ (Told.Alike alike) (s.transcript site around steps)
      (t.transcript site around' steps) := by
  induction steps generalizing s t with
  | nil => exact .nil
  | cons st steps ih =>
    obtain ⟨htold, hlinked⟩ := h.step alike hR haround halike st
    exact .cons htold (ih hlinked)

end Site.Serving

end

end Gatehouse
