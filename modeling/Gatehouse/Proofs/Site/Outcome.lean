import Gatehouse.Proofs.Cache.FailsOpen
import Gatehouse.Proofs.Layer.FailsClosed
import Gatehouse.Proofs.Layer.Gates
import Gatehouse.Proofs.Site.Serving

/-!
# What a request comes to

A site answers a request in one of a few ways, and this module tells them apart, once for all that
is said about its answers later.

* Whatever is inside, the outermost layers put their marks on the response and a record of the
  request into the journal: **`Site.answer_eq`**.
* Inside them the request is either turned away by the limiter or handed on:
  **`Site.limits_guarded`**.
* What is behind the limiter either turns the request away at a gate, or looks into the cache, or
  does neither: **`Site.courses_shared`**. Of all that is noted on the way only the *account* is
  told: the records of requests and what is counted of them, `Note.isAccount`.

Put together, these say what a request comes to and what its account is, for every store and in
every state: **`Site.exists_tally_answer`**.
-/

namespace Gatehouse

/-! ## Accounts -/

/-- A note by which requests are accounted for: a record of a request, or something that is counted
once for a request. -/
def Note.isAccount : Note → Bool
  | .event (.completed ..) | .event (.rejected ..) => true
  | .metric .limiterRejection | .metric .limiterStoreError => true
  | .metric (.cacheLookup _) | .metric (.requestDuration ..) => true
  | _ => false

namespace Journal

/-- The notes by which requests are accounted for. -/
def account (j : Journal) : Journal := j.filter Note.isAccount

@[simp]
theorem account_append (j j' : Journal) : (j ++ j').account = j.account ++ j'.account :=
  List.filter_append ..

end Journal

namespace Run

variable {σ α β : Type}

/-- Whatever state a run starts in, it only adds notes, none of which is part of an account, and it
gives a result of the given kind. -/
def Unaccounted (gives : α → Prop) (r : Run σ α) : Prop :=
  ∀ w, (∃ notes : Journal, (r w).2.journal = w.journal ++ notes ∧ notes.account = []) ∧
    gives (r w).1

variable {gives : α → Prop} {gives' : β → Prop}

theorem unaccounted_pure {a : α} (ha : gives a) : (pure a : Run σ α).Unaccounted gives := fun _ ↦
  ⟨⟨[], (List.append_nil _).symm, rfl⟩, ha⟩

theorem Unaccounted.bind {r : Run σ α} {f : α → Run σ β} (hr : r.Unaccounted gives)
    (hf : ∀ a, gives a → (f a).Unaccounted gives') : (r >>= f).Unaccounted gives' := by
  intro w
  obtain ⟨⟨notes, hnotes, haccount⟩, hgives⟩ := hr w
  obtain ⟨⟨notes', hnotes', haccount'⟩, hgives'⟩ := hf _ hgives (r w).2
  refine ⟨⟨notes ++ notes', ?_, ?_⟩, hgives'⟩
  · rw [← List.append_assoc, ← hnotes]
    exact hnotes'
  · rw [Journal.account_append, haccount, haccount', List.append_nil]

theorem unaccounted_note {n : Note} (hn : n.isAccount = false) :
    (note n : Run σ Unit).Unaccounted fun _ ↦ True := fun _ ↦
  ⟨⟨[n], rfl, by rw [Journal.account, List.filter_cons_of_neg (by rw [hn]; exact nofun)]; rfl⟩,
    trivial⟩

theorem unaccounted_now : (now : Run σ Instant).Unaccounted fun _ ↦ True := fun _ ↦
  ⟨⟨[], (List.append_nil _).symm, rfl⟩, trivial⟩

theorem unaccounted_call (op : StoreOp) (subject : String) (access : Instant → Access σ α) :
    (call op subject access).Unaccounted fun _ ↦ True := fun _ ↦ ⟨⟨[_], rfl, rfl⟩, trivial⟩

end Run

/-! ## Plain responses -/

/-- The fields in which a limiter speaks. -/
def limiterFields : List String :=
  ["x-ratelimit-limit", "x-ratelimit-remaining", "x-ratelimit-reset", "retry-after"]

/-- A response in which no limiter speaks. -/
structure Response.IsPlain (r : Response) : Prop where
  status_ne : r.status ≠ .tooManyRequests
  values_eq : ∀ name ∈ limiterFields, r.headers.values name = []

theorem Response.isPlain_ofJson {status : Http.Status} (h : status ≠ .tooManyRequests) (v : Json) :
    (ofJson status v).IsPlain where
  status_ne := h
  values_eq name hname := by
    have hne : "content-type" ≠ name := by
      rintro rfl
      exact absurd hname (by decide)
    rw [ofJson, ofBytes, Headers.values_cons, if_neg hne]
    rfl

theorem Response.isPlain_ofStatus {status : Http.Status} (h : status ≠ .tooManyRequests) :
    (ofStatus status).IsPlain where
  status_ne := h
  values_eq _ _ := rfl

/-- The fields that tell browsers who may ask are not the limiter's. -/
theorem Headers.values_withOrigin (h : Headers) (origin : Option Bytes) {name : String}
    (hname : name ∈ limiterFields) : (h.withOrigin origin).values name = h.values name := by
  have hne : name ≠ "access-control-allow-origin" := by
    rintro rfl
    exact absurd hname (by decide)
  cases origin with
  | none => rfl
  | some value => rw [withOrigin, values_insert, if_neg hne]

theorem isPlain_preflight (origin : Option Bytes) : (preflight origin).IsPlain where
  status_ne := by
    have hok : (preflight origin).status = .ok := rfl
    rw [hok]
    decide
  values_eq name hname := by
    rw [preflight, Response.ofBytes, Headers.values_withOrigin _ _ hname]
    exact (by decide : ∀ name ∈ limiterFields, Headers.values [("vary", utf8 varyText),
      ("access-control-allow-methods", utf8 "*"), ("access-control-allow-headers", utf8 "*")] name
        = []) name hname

/-! ## Gates -/

/-- The gate in front of a route, if it has one. -/
def Route.gate? : Route → Option Gate
  | .me => some .required
  | .session => some .optional
  | .purge => some .admin
  | _ => none

theorem Route.serves_options (r : Route) : r.serves .options = false := by cases r <;> decide

/-- No gate turns a request away for its client's having made too many. -/
theorem Headers.Identifies.status_ne {h : Headers} {around : Surroundings} {cookie : String}
    {now : Instant} {f : Failure} (hi : h.Identifies around cookie now (.error f)) :
    f.status ≠ .tooManyRequests := by
  cases hi with
  | missing hnone => decide
  | @refused token e hbrings hvalidate => cases e <;> exact of_decide_eq_true rfl
  | @unresolved token claims e hbrings hvalidate hfind => cases e <;> exact of_decide_eq_true rfl

/-- The optional gate turns nobody away. -/
theorem Gate.of_letThrough_eq_error {gate : Gate} {h : Headers} {around : Surroundings}
    {cookie : String} {now : Instant} {f : Failure}
    (hlet : gate.letThrough (h.authenticate around cookie now) = .error f) :
    gate ≠ .optional ∧ f.status ≠ .tooManyRequests := by
  have hi := h.identifies_authenticate around cookie now
  rcases hwho : h.authenticate around cookie now with f' | u <;> rw [hwho] at hlet hi
  · cases gate with
    | required | admin =>
      cases hlet
      exact ⟨nofun, hi.status_ne⟩
    | optional => cases hlet
  · cases gate with
    | required | optional => cases hlet
    | admin =>
      rw [letThrough] at hlet
      split_ifs at hlet
      cases hlet
      exact ⟨nofun, of_decide_eq_true rfl⟩

/-! ## The logger -/

/-- The record of a request that is answered. -/
def LogFilter.record (filter : LogFilter) (req : Request) (status : Http.Status)
    (elapsed : Duration) : Journal :=
  .metric (.requestDuration (req.route.getD Service.unmatchedEndpoint) req.method.name status
      elapsed) ::
    if filter.shouldLog req.target.path then
      [.event (.completed req.method.name req.target.path status elapsed (Context.of req))]
    else []

theorem Service.logged_apply {σ : Type} (filter : LogFilter) (next : Service σ) (req : Request)
    (w : World σ) : logged filter next req w =
      let answer := next req w
      (answer.1,
        answer.2.noted (filter.record req answer.1.status (answer.2.now - w.now))) := by
  rcases hnext : next req w with ⟨r, w'⟩
  by_cases hlog : filter.shouldLog req.target.path = true
  · simp only [logged, LogFilter.record, bind, StateT.bind, Run.now, hnext, if_pos hlog, Run.count,
      Run.log, Run.note_apply, World.noted_noted]
    rfl
  · simp only [logged, LogFilter.record, bind, StateT.bind, Run.now, hnext, if_neg hlog]
    rfl

namespace Site

/-- The gate that a request to a route comes to, if the route serves its method. -/
def gateOf (route : Option Route) (method : Http.Method) : Option Gate :=
  route.bind fun r ↦ if r.serves method then r.gate? else none

/-- The gate that turns a request away, and why, if one does. -/
def refusal? (site : Site) (around : Surroundings) (route : Option Route) (req : Request)
    (now : Instant) : Option (Gate × Failure) :=
  (gateOf route req.method).bind fun gate ↦
    match gate.letThrough (req.headers.authenticate around site.settings.authCookie now) with
    | .error f => some (gate, f)
    | .ok _ => none

/-- The request is one that the cache may answer. -/
def AsksCache (route : Option Route) (req : Request) : Prop :=
  route = some .stats ∧ req.method = .get

instance (route : Option Route) (req : Request) : Decidable (AsksCache route req) :=
  inferInstanceAs (Decidable (_ ∧ _))

theorem of_refusal?_eq_some {site : Site} {around : Surroundings} {route : Option Route}
    {req : Request} {now : Instant} {gate : Gate} {f : Failure}
    (h : site.refusal? around route req now = some (gate, f)) :
    gate ≠ .optional ∧ f.status ≠ .tooManyRequests := by
  obtain ⟨gate', -, hlet⟩ := Option.bind_eq_some_iff.mp h
  split at hlet <;> cases hlet
  exact Gate.of_letThrough_eq_error ‹_›

/-- What the cache may answer passes no gate. -/
theorem AsksCache.refusal?_eq_none {route : Option Route} {req : Request}
    (h : AsksCache route req) (site : Site) (around : Surroundings) (now : Instant) :
    site.refusal? around route req now = none := by
  obtain ⟨rfl, hget⟩ := h
  rw [refusal?, gateOf, hget]
  rfl

/-- What becomes of a request behind the limiter: the response, and the account of it. -/
inductive Course (site : Site) (around : Surroundings) (route : Option Route) (req : Request)
    (now : Instant) : Response → Journal → Prop
  /-- A gate turns it away. -/
  | refused {gate : Gate} {f : Failure} {r : Response}
      (hrefusal : site.refusal? around route req now = some (gate, f))
      (hstatus : r.status = f.status) (hbody : r.body = (Response.ofFailure f).body) :
      Course site around route req now r
        [.event (.rejected gate.operation f (Context.of req))]
  /-- The cache is looked into. -/
  | looked {result : LookupResult} {r : Response} (hcache : AsksCache route req)
      (hstatus : r.status = .tooManyRequests → result = .hit) :
      Course site around route req now r [.metric (.cacheLookup result)]
  /-- It is handled, or told that it goes nowhere. -/
  | handled {r : Response} (hrefusal : site.refusal? around route req now = none)
      (hcache : ¬ AsksCache route req) (hstatus : r.status ≠ .tooManyRequests) :
      Course site around route req now r []

section

variable {σ : Type} {site : Site} {around : Surroundings} {route : Option Route} {req : Request}
  {w w' : World σ} {answer : Response × World σ}

/-- What is put on the header fields of a response does not change its course. -/
theorem Course.withHeaders {now : Instant} {r : Response} {account : Journal}
    (h : Course site around route req now r account) (headers : Headers) :
    Course site around route req now { r with headers } account := by
  cases h with
  | refused hrefusal hstatus hbody => exact .refused hrefusal hstatus hbody
  | looked hcache hstatus => exact .looked hcache hstatus
  | handled hrefusal hcache hstatus => exact .handled hrefusal hcache hstatus

/-- A run takes a course: it only adds notes, and the account among them belongs to the course. -/
def Courses (site : Site) (around : Surroundings) (route : Option Route) (req : Request)
    (w : World σ) (answer : Response × World σ) : Prop :=
  ∃ notes : Journal, answer.2.journal = w.journal ++ notes ∧
    Course site around route req w.now answer.1 notes.account

theorem Courses.withHeaders (h : Courses site around route req w answer) (headers : Headers) :
    Courses site around route req w ({ answer.1 with headers }, answer.2) := by
  obtain ⟨notes, hnotes, hcourse⟩ := h
  exact ⟨notes, hnotes, hcourse.withHeaders headers⟩

/-- Something that is no part of an account may be noted before. -/
theorem Courses.after {notes : Journal} (h : Courses site around route req w' answer)
    (hnotes : w'.journal = w.journal ++ notes) (hnow : w'.now = w.now)
    (haccount : notes.account = []) : Courses site around route req w answer := by
  obtain ⟨notes', hnotes', hcourse⟩ := h
  refine ⟨notes ++ notes', ?_, ?_⟩
  · rw [hnotes', hnotes, List.append_assoc]
  · rw [Journal.account_append, haccount, List.nil_append, ← hnow]
    exact hcourse

theorem courses_of_unaccounted {r : Run σ Response}
    (hr : r.Unaccounted fun response ↦ response.status ≠ .tooManyRequests)
    (hrefusal : site.refusal? around route req w.now = none) (hcache : ¬ AsksCache route req) :
    Courses site around route req w (r w) := by
  obtain ⟨⟨notes, hnotes, haccount⟩, hstatus⟩ := hr w
  exact ⟨notes, hnotes, haccount ▸ .handled hrefusal hcache hstatus⟩

/-! ## Behind the gates -/

/-- A request turned away at a gate takes the course of a refusal. -/
theorem courses_turnedAway {gate : Gate} {f : Failure}
    (hrefusal : site.refusal? around route req w.now = some (gate, f)) :
    Courses site around route req w (gate.turnedAway f req w) :=
  ⟨_, rfl, .refused hrefusal rfl rfl⟩

/-- A service behind a gate takes the course of a refusal, or that of a request that is handled. -/
theorem courses_gated {r : Route} {gate : Gate} {inner : Service σ} (hserves : r.serves req.method)
    (hgate : r.gate? = some gate) (hinner : ∀ req,
      (inner req).Unaccounted fun response ↦ response.status ≠ .tooManyRequests) :
    Courses site around (some r) req w
      (Service.gated around gate site.settings.authCookie inner req w) := by
  have hcache : ¬ AsksCache (some r) req := by
    rintro ⟨heq, -⟩
    cases heq
    cases hgate
  have hrefusal : site.refusal? around (some r) req w.now =
      match gate.letThrough (req.headers.authenticate around site.settings.authCookie w.now) with
      | .error f => some (gate, f)
      | .ok _ => none := by
    rw [refusal?, gateOf, Option.bind_some, if_pos hserves, hgate, Option.bind_some]
  rcases hwho : req.headers.authenticate around site.settings.authCookie w.now with f | u <;>
    rw [hwho] at hrefusal
  · cases gate with
    | required | admin =>
      rw [Service.gated_of_refused _ hwho rfl rfl]
      exact courses_turnedAway hrefusal
    | optional =>
      rw [Service.gated_optional_of_error hwho]
      split
      · exact courses_of_unaccounted (hinner req) hrefusal hcache
      · exact (courses_of_unaccounted (w := Gate.tolerated f w) (hinner req) hrefusal hcache).after
          rfl rfl rfl
  · cases gate with
    | required | optional =>
      rw [Service.gated_of_ok hwho rfl]
      exact courses_of_unaccounted (hinner _) hrefusal hcache
    | admin =>
      rw [Service.gated_admin_of_ok hwho]
      by_cases hrole : u.role = "admin"
      · have hlet : Gate.admin.letThrough (.ok u) = .ok (some u) := if_pos (beq_iff_eq.mpr hrole)
        rw [hlet] at hrefusal
        rw [if_pos hrole]
        exact courses_of_unaccounted (hinner _) hrefusal hcache
      · have hlet : Gate.admin.letThrough (.ok u)
            = .error (.forbidden "Administrator role required") :=
          if_neg (mt beq_iff_eq.mp hrole)
        rw [hlet] at hrefusal
        rw [if_neg hrole]
        exact courses_turnedAway hrefusal

end

/-! ## Handlers -/

section

variable {σ : Type} [CacheStore σ] {site : Site}

/-- Handlers give plain responses and take no part in the account. -/
theorem unaccounted_handler (r : Route) (req : Request) :
    (site.handler r req : Run σ Response).Unaccounted Response.IsPlain := by
  cases r with
  | health =>
    exact Run.unaccounted_now.bind fun _ _ ↦
      Run.unaccounted_pure (Response.isPlain_ofJson (by decide) _)
  | ready =>
    refine (Run.unaccounted_call _ _ _).bind fun answer _ ↦ ?_
    cases answer with
    | ok _ => exact Run.unaccounted_pure (Response.isPlain_ofJson (by decide) _)
    | error e =>
      exact (Run.unaccounted_note rfl).bind fun _ _ ↦
        Run.unaccounted_pure (Response.isPlain_ofJson (by decide) _)
  | stats =>
    exact Run.unaccounted_now.bind fun _ _ ↦
      Run.unaccounted_pure (Response.isPlain_ofJson (by decide) _)
  | me =>
    simp only [handler, Handlers.me, Request.currentUser]
    cases req.user <;> exact Run.unaccounted_pure (Response.isPlain_ofJson (by decide) _)
  | session => exact Run.unaccounted_pure (Response.isPlain_ofJson (by decide) _)
  | purge =>
    simp only [handler, Handlers.purge, Request.currentUser]
    cases req.user with
    | none => exact Run.unaccounted_pure (Response.isPlain_ofJson (by decide) _)
    | some u =>
      exact (Run.unaccounted_note rfl).bind fun _ _ ↦
        Run.unaccounted_pure (Response.isPlain_ofStatus (by decide))

theorem unaccounted_invalidating (pattern : String) {inner : Service σ} {req : Request}
    {gives : Response → Prop} (h : (inner req).Unaccounted gives) :
    (Service.invalidating pattern inner req).Unaccounted gives := by
  have hdelete : (Service.invalidation pattern : Run σ Unit).Unaccounted fun _ ↦ True :=
    (Run.unaccounted_call _ _ _).bind fun answer _ ↦ by
      cases answer with
      | ok _ => exact Run.unaccounted_note rfl
      | error e => exact (Run.unaccounted_note rfl).bind fun _ _ ↦ Run.unaccounted_note rfl
  exact h.bind fun r hr ↦ hdelete.bind fun _ _ ↦ Run.unaccounted_pure hr

/-! ## The cache -/

/-- Of a look into the cache the account has the result. -/
theorem account_found (key : String) (answer : Except StoreError (Option Bytes)) :
    ∃ result, (Service.found key answer).2.account = [.metric (.cacheLookup result)] ∧
      ((Service.found key answer).1 ≠ none → result = .hit) := by
  rcases answer with e | _ | raw
  · exact ⟨.error, rfl, fun h ↦ absurd rfl h⟩
  · exact ⟨.miss, rfl, fun h ↦ absurd rfl h⟩
  · rw [Service.found]
    rcases Cache.Entry.restore raw with e | ⟨status, headers, body⟩
    · exact ⟨.error, rfl, fun h ↦ absurd rfl h⟩
    · exact ⟨.hit, rfl, fun _ ↦ rfl⟩

omit [CacheStore σ] in
theorem unaccounted_capturing (settings : CacheSettings) (key : String) {r : Response}
    (hr : r.status ≠ .tooManyRequests) :
    (Service.capturing settings key r : Run σ Response).Unaccounted fun response ↦
      response.status ≠ .tooManyRequests := by
  rw [Service.capturing]
  split_ifs
  · exact Run.unaccounted_pure hr
  · exact (Run.unaccounted_note rfl).bind fun _ _ ↦ Run.unaccounted_pure hr
  · exact (Run.unaccounted_note rfl).bind fun _ _ ↦ Run.unaccounted_pure hr
  · exact Run.unaccounted_pure hr

variable {around : Surroundings} {route : Option Route} {req : Request} {w : World σ}

/-- What the cache may answer takes the course of a look. -/
theorem courses_cached {inner : Service σ} (hcache : AsksCache route req)
    (hinner : (inner req).Unaccounted fun response ↦ response.status ≠ .tooManyRequests) :
    Courses site around route req w (Service.cached site.cacheSettings inner req w) := by
  let key := site.cacheSettings.key req
  obtain ⟨result, hresult, hhit⟩ := account_found key (Run.get key w).1
  have hlookup := Service.lookup?_apply key w
  have hlooked : ((Run.get key w).2.noted (Service.found key (Run.get key w).1).2).journal
      = w.journal ++ (.call ⟨.get, key⟩ :: (Service.found key (Run.get key w).1).2) := by
    rw [List.append_cons]
    rfl
  rcases hfound : (Service.found key (Run.get key w).1).1 with _ | r
  · have hmiss : (Service.lookup? key w).1 = none := by rw [hlookup, hfound]
    have hbehind := hinner.bind fun r hr ↦ unaccounted_capturing site.cacheSettings key hr
    obtain ⟨⟨notes, hnotes, haccount⟩, hstatus⟩ :=
      hbehind ((Run.get key w).2.noted (Service.found key (Run.get key w).1).2)
    rw [Service.cached_of_lookup?_eq_none hcache.2 hmiss, hlookup]
    refine ⟨(.call ⟨.get, key⟩ :: (Service.found key (Run.get key w).1).2) ++ notes, ?_, ?_⟩
    · rw [← List.append_assoc, ← hlooked]
      exact hnotes
    · rw [Journal.account_append, haccount, List.append_nil]
      exact hresult ▸ .looked hcache fun h ↦ absurd h hstatus
  · have hsome : (Service.lookup? key w).1 = some r := by rw [hlookup, hfound]
    rw [Service.cached_of_lookup?_eq_some hcache.2 hsome, hlookup]
    refine ⟨_, hlooked, ?_⟩
    have hhit := hhit (by rw [hfound]; exact nofun)
    exact hresult ▸ .looked hcache fun _ ↦ hhit

end

/-! ## Behind the limiter -/

section

variable {σ : Type} [CounterStore σ] [CacheStore σ] (site : Site) (around : Surroundings)
  (route : Option Route) (req : Request) (w : World σ)

theorem courses_served {r : Route} (hserves : r.serves req.method = true) :
    Courses site around (some r) req w (site.served around r req w) := by
  have hhandler : ∀ (r : Route) (req : Request), (site.handler r req : Run σ Response).Unaccounted
      fun response ↦ response.status ≠ .tooManyRequests := fun r req w ↦
    ⟨(unaccounted_handler r req w).1, (unaccounted_handler r req w).2.status_ne⟩
  have hopen : r.gate? = none → site.refusal? around (some r) req w.now = none := fun hgate ↦ by
    rw [refusal?, gateOf, Option.bind_some, if_pos hserves, hgate]
    rfl
  cases r with
  | health =>
    exact courses_of_unaccounted (r := site.handler .health req) (hhandler _ _) (hopen rfl) nofun
  | ready =>
    exact courses_of_unaccounted (r := site.handler .ready req) (hhandler _ _) (hopen rfl) nofun
  | stats =>
    by_cases hget : req.method = .get
    · exact courses_cached ⟨rfl, hget⟩ (hhandler .stats req)
    · have hserved : (site.served around .stats req : Run σ Response) = site.handler .stats req :=
        if_pos hget
      rw [hserved]
      exact courses_of_unaccounted (hhandler .stats req) (hopen rfl) fun h ↦ hget h.2
  | me => exact courses_gated hserves rfl (hhandler .me)
  | session => exact courses_gated hserves rfl (hhandler .session)
  | purge =>
    exact courses_gated hserves rfl fun req ↦ unaccounted_invalidating _ (hhandler .purge req)

theorem courses_dispatch : Courses site around route req w (site.dispatch around route req w) := by
  rcases route with _ | r
  · exact courses_of_unaccounted (Run.unaccounted_pure (by decide)) rfl nofun
  · by_cases hserves : r.serves req.method = true
    · simp only [dispatch, if_pos hserves]
      exact site.courses_served around req w hserves
    · simp only [dispatch, if_neg hserves]
      refine courses_of_unaccounted (Run.unaccounted_pure (by decide)) ?_ ?_
      · rw [refusal?, gateOf, Option.bind_some, if_neg hserves]
        rfl
      · rintro ⟨heq, hget⟩
        cases heq
        rw [hget] at hserves
        exact hserves rfl

/-- The part of a site that is behind its limiter. -/
def shared : Service σ :=
  Service.sharedWith (Origins.ofTexts site.settings.corsOrigins) (site.dispatch around route)

theorem courses_shared : Courses site around route req w (site.shared around route req w) := by
  by_cases hoptions : req.method = .options
  · simp only [shared, Service.sharedWith, if_pos hoptions]
    refine courses_of_unaccounted (Run.unaccounted_pure (isPlain_preflight _).status_ne) ?_ ?_
    · have hgate : gateOf route req.method = none := by
        rw [hoptions, gateOf]
        cases route with
        | none => rfl
        | some r => rw [Option.bind_some, r.serves_options, if_neg Bool.false_ne_true]
      rw [refusal?, hgate]
      rfl
    · rintro ⟨-, hget⟩
      rw [hget] at hoptions
      exact absurd hoptions (by decide)
  · simp only [shared, Service.sharedWith, if_neg hoptions]
    exact (site.courses_dispatch around route req w).withHeaders _

/-! ## The limiter -/

/-- What becomes of a request at the limiter of a site, and what is left behind. -/
inductive Limits (site : Site) (around : Surroundings) (route : Option Route) (req : Request)
    (w : World σ) : Response × World σ → Prop
  | unlimited (hlimiter : site.limiter = none) :
      Limits site around route req w (site.shared around route req w)
  | uncounted {l : Limiter} {e : StoreError} {w' : World σ} (hlimiter : site.limiter = some l)
      (hcount : l.count (Context.of req).clientIp w = (.error e, w')) :
      Limits site around route req w (.ofFailure (.store e), w'.noted [.metric .limiterStoreError,
        .event (.rejected "rate_limit" (.store e) (Context.of req))])
  | beyond {l : Limiter} {n : Nat} {left : Except StoreError (Option Duration)} {w' w'' : World σ}
      (hlimiter : site.limiter = some l)
      (hcount : l.count (Context.of req).clientIp w = (.ok n, w'))
      (hleft : Run.ttl (l.key (Context.of req).clientIp) w' = (left, w'')) (hlt : l.limit < n) :
      Limits site around route req w
        (Service.overLimit (l.decide w.now n left) w.now (.ofFailure .rateLimited),
          w''.noted [.metric .limiterRejection,
            .event (.rejected "rate_limit" .rateLimited (Context.of req))])
  | within {l : Limiter} {n : Nat} {left : Except StoreError (Option Duration)} {w' w'' : World σ}
      (hlimiter : site.limiter = some l)
      (hcount : l.count (Context.of req).clientIp w = (.ok n, w'))
      (hleft : Run.ttl (l.key (Context.of req).clientIp) w' = (left, w'')) (hle : n ≤ l.limit) :
      Limits site around route req w
        ({ (site.shared around route req w'').1 with
            headers := (l.decide w.now n left).report (site.shared around route req w'').1.headers },
          (site.shared around route req w'').2)

theorem limits_guarded : Limits site around route req w (site.guarded around route req w) := by
  rcases hlimiter : site.limiter with _ | l
  · have hguarded : (site.guarded around route : Service σ) = site.shared around route := by
      rw [guarded, hlimiter]
      rfl
    rw [hguarded]
    exact .unlimited hlimiter
  have hguarded : (site.guarded around route : Service σ)
      = Service.limited l (site.shared around route) := by
    rw [guarded, hlimiter]
    rfl
  rw [hguarded]
  rcases hanswer : CounterStore.increment w.now (l.key (Context.of req).clientIp) l.window l.policy
    w.store with ⟨answer, s⟩
  have hcount : l.count (Context.of req).clientIp w = (answer,
      World.noted { w with store := s } [.call ⟨.increment, l.key (Context.of req).clientIp⟩]) := by
    simp only [Limiter.count, Run.increment, Run.call, hanswer]
    rfl
  rcases answer with e | n
  · have haway : Limits site around route req w _ := .uncounted hlimiter hcount
    rw [World.noted_noted] at haway
    rw [Service.limited_of_error hanswer]
    exact haway
  rcases htime : CounterStore.ttl w.now (l.key (Context.of req).clientIp) s with ⟨left, s'⟩
  have hleft : Run.ttl (l.key (Context.of req).clientIp)
      (World.noted { w with store := s } [.call ⟨.increment, l.key (Context.of req).clientIp⟩])
        = (left, World.noted { w with store := s' }
            [.call ⟨.increment, l.key (Context.of req).clientIp⟩,
              .call ⟨.ttl, l.key (Context.of req).clientIp⟩]) := by
    simp only [Run.ttl, Run.call, World.noted, htime, List.append_assoc]
    rfl
  rcases Nat.lt_or_ge l.limit n with hlt | hle
  · have haway : Limits site around route req w _ := .beyond hlimiter hcount hleft hlt
    rw [World.noted_noted] at haway
    rw [Service.limited_of_lt hanswer htime hlt]
    exact haway
  · rw [Service.limited_of_le hanswer htime hle]
    exact .within hlimiter hcount hleft hle

/-- What becomes of a request at the limiter of a site and behind it: the response, and the account
of it. -/
inductive Tally (site : Site) (around : Surroundings) (route : Option Route) (req : Request)
    (w : World σ) : Response → Journal → Prop
  /-- It cannot be counted. -/
  | uncounted {l : Limiter} {e : StoreError} (hlimiter : site.limiter = some l)
      (hcount : (l.count (Context.of req).clientIp w).1 = .error e) :
      Tally site around route req w (.ofFailure (.store e)) [.metric .limiterStoreError,
        .event (.rejected "rate_limit" (.store e) (Context.of req))]
  /-- It is beyond the limit. -/
  | beyond {l : Limiter} {n : Nat} {r : Response} (hlimiter : site.limiter = some l)
      (hcount : (l.count (Context.of req).clientIp w).1 = .ok n) (hlt : l.limit < n)
      (hstatus : r.status = .tooManyRequests)
      (hbody : r.body = (Response.ofFailure .rateLimited).body) :
      Tally site around route req w r [.metric .limiterRejection,
        .event (.rejected "rate_limit" .rateLimited (Context.of req))]
  /-- It is let in. -/
  | letIn {r : Response} {account : Journal}
      (hlets : site.letsIn (Context.of req).clientIp w = true)
      (hcourse : Course site around route req w.now r account) :
      Tally site around route req w r account

omit [CacheStore σ] in
theorem letsIn_eq_false_of_error {site : Site} {l : Limiter} {client : String} {w : World σ}
    {e : StoreError} (hlimiter : site.limiter = some l) (hcount : (l.count client w).1 = .error e) :
    site.letsIn client w = false := by
  rw [letsIn, hlimiter]
  simp only [hcount]

omit [CacheStore σ] in
theorem letsIn_eq_false_of_lt {site : Site} {l : Limiter} {client : String} {w : World σ} {n : Nat}
    (hlimiter : site.limiter = some l) (hcount : (l.count client w).1 = .ok n) (hlt : l.limit < n) :
    site.letsIn client w = false := by
  rw [letsIn, hlimiter]
  simp only [hcount, decide_eq_false (Nat.not_le.mpr hlt)]

omit [CacheStore σ] in
/-- A call of the store is noted, and takes no time. -/
theorem asked_of_count {l : Limiter} {client : String} {w w' : World σ}
    {answer : Except StoreError Nat} (h : l.count client w = (answer, w')) :
    w'.journal = w.journal ++ [.call ⟨.increment, l.key client⟩] ∧ w'.now = w.now := by
  cases h
  exact ⟨rfl, rfl⟩

omit [CacheStore σ] in
theorem asked_of_ttl {key : String} {w w' : World σ} {left : Except StoreError (Option Duration)}
    (h : Run.ttl key w = (left, w')) :
    w'.journal = w.journal ++ [.call ⟨.ttl, key⟩] ∧ w'.now = w.now := by
  cases h
  exact ⟨rfl, rfl⟩

variable {site around route req w}

/-- The way to the limiter and behind it adds up to a tally. -/
theorem Limits.exists_tally {answer : Response × World σ}
    (h : Limits site around route req w answer) : ∃ notes : Journal,
      answer.2.journal = w.journal ++ notes ∧
        Tally site around route req w answer.1 notes.account := by
  cases h with
  | unlimited hlimiter =>
    obtain ⟨notes, hnotes, hcourse⟩ := site.courses_shared around route req w
    refine ⟨notes, hnotes, .letIn ?_ hcourse⟩
    rw [letsIn, hlimiter]
  | @uncounted l e w' hlimiter hcount =>
    obtain ⟨hjournal, -⟩ := asked_of_count hcount
    refine ⟨[.call ⟨.increment, l.key (Context.of req).clientIp⟩] ++ [.metric .limiterStoreError,
      .event (.rejected "rate_limit" (.store e) (Context.of req))], ?_, ?_⟩
    · rw [World.noted, hjournal, List.append_assoc]
    · exact .uncounted hlimiter (congrArg Prod.fst hcount)
  | @beyond l n left w' w'' hlimiter hcount hleft hlt =>
    obtain ⟨hcounted, -⟩ := asked_of_count hcount
    obtain ⟨hasked, -⟩ := asked_of_ttl hleft
    refine ⟨[.call ⟨.increment, l.key (Context.of req).clientIp⟩] ++
      ([.call ⟨.ttl, l.key (Context.of req).clientIp⟩] ++ [.metric .limiterRejection,
        .event (.rejected "rate_limit" .rateLimited (Context.of req))]), ?_, ?_⟩
    · rw [World.noted, hasked, hcounted, List.append_assoc, List.append_assoc]
    · exact .beyond hlimiter (congrArg Prod.fst hcount) hlt rfl rfl
  | @within l n left w' w'' hlimiter hcount hleft hle =>
    obtain ⟨hcounted, hnow⟩ := asked_of_count hcount
    obtain ⟨hasked, hnow'⟩ := asked_of_ttl hleft
    have hjournal : w''.journal = w.journal ++
        [.call ⟨.increment, l.key (Context.of req).clientIp⟩,
          .call ⟨.ttl, l.key (Context.of req).clientIp⟩] := by
      rw [hasked, hcounted, List.append_assoc]
      rfl
    have hlets : site.letsIn (Context.of req).clientIp w = true :=
      (letsIn_iff hlimiter _ w).mpr ⟨n, hle, congrArg Prod.fst hcount⟩
    have hcourses := (site.courses_shared around route req w'').withHeaders
      ((l.decide w.now n left).report (site.shared around route req w'').1.headers)
    obtain ⟨notes, hnotes, hcourse⟩ := hcourses.after hjournal (hnow'.trans hnow) rfl
    exact ⟨notes, hnotes, .letIn hlets hcourse⟩

variable (site around route req w)

/-! ## The outermost layers -/

/-- The id that a request is given in a state. -/
def idIn (around : Surroundings) (w : World σ) : String := Uuid.ofRandom (around.random w.drawn)

/-- The request as everything behind the marks knows it. -/
def known (site : Site) (around : Surroundings) (req : Request) (w : World σ) : Request :=
  { routed req with context := some (.capture (routed req) (idIn around w) site.trust) }

/-- The marks that the outermost layers put on a response. -/
def marked (id : String) (r : Response) : Response :=
  Response.withText { r with headers := r.headers.secured } requestIdField id

/-- A response as it leaves the site: with the marks on it, and finished. -/
def dressed (req : Request) (id : String) (r : Response) : Response :=
  match Route.ofPath? req.target.path with
  | some route => finished req.method (allowedFor route req.method) (marked id r)
  | none =>
    if Text.startsWith req.target.path "/" then marked id r
    else finished req.method none (marked id r)

theorem status_dressed (req : Request) (id : String) (r : Response) :
    (dressed req id r).status = r.status := by
  rw [dressed]
  split
  · rfl
  · split <;> rfl

/-- The body is left out where only the header fields were asked for. -/
theorem body_dressed (req : Request) (id : String) (r : Response) :
    (dressed req id r).body = r.body ∨
      req.method = .head ∧ (dressed req id r).body = .empty := by
  have hfinished : ∀ allowed, (finished req.method allowed (marked id r)).body = r.body ∨
      req.method = .head ∧ (finished req.method allowed (marked id r)).body = .empty := by
    intro allowed
    by_cases hmethod : req.method = .head
    · exact .inr ⟨hmethod, if_pos hmethod⟩
    · exact .inl (if_neg hmethod)
  rw [dressed]
  split
  · exact hfinished _
  · split
    · exact .inl rfl
    · exact hfinished _

/-- Which requests a site records. -/
def filter (site : Site) : LogFilter := ⟨site.settings.includedPaths, site.settings.excludedPaths⟩

theorem passed_apply : site.passed around route req w =
    let known : Request :=
      { req with context := some (.capture req (idIn around w) site.trust) }
    let inner := site.guarded around route known (identifiedIn around w)
    (marked (idIn around w) inner.1,
      inner.2.noted (site.filter.record known inner.1.status (inner.2.now - w.now))) := by
  have hlogged := Service.logged_apply site.filter (site.guarded around route)
    { req with context := some (.capture req (idIn around w) site.trust) } (identifiedIn around w)
  rw [passed_eq]
  exact congrArg (fun answer : Response × World σ ↦ (marked (idIn around w) answer.1, answer.2))
    hlogged

/-- **What is inside is dressed and recorded**, whatever it is. -/
theorem answer_eq : site.answer around req w =
    let inner := site.guarded around (Route.ofPath? req.target.path) (site.known around req w)
      (identifiedIn around w)
    (dressed req (idIn around w) inner.1,
      inner.2.noted (site.filter.record (site.known around req w) inner.1.status
        (inner.2.now - w.now))) := by
  rcases hroute : Route.ofPath? req.target.path with _ | r <;>
    simp only [answer, hroute, known, routed, dressed, bind, StateT.bind]
  · rw [site.passed_apply around none req w]
    by_cases hpath : Text.startsWith req.target.path "/" = true
    · simp only [if_pos hpath]
      rfl
    · simp only [if_neg hpath]
      rfl
  · rw [site.passed_apply around (some r) { req with route := some r.path } w]
    rfl

/-- The account of an answer: what a request comes to inside, and the record of it. -/
theorem exists_tally_answer : ∃ (r : Response) (account notes : Journal) (elapsed : Duration),
    Tally site around (Route.ofPath? req.target.path) (site.known around req w)
        (identifiedIn around w) r account ∧
      (site.answer around req w).1 = dressed req (idIn around w) r ∧
      (site.answer around req w).2.journal = w.journal ++ notes ∧
      notes.account = account ++ site.filter.record (site.known around req w) r.status elapsed := by
  obtain ⟨notes, hnotes, htally⟩ := (site.limits_guarded around (Route.ofPath? req.target.path)
    (site.known around req w) (identifiedIn around w)).exists_tally
  have hrecord : ∀ status elapsed, Journal.account
      (site.filter.record (site.known around req w) status elapsed)
        = site.filter.record (site.known around req w) status elapsed := by
    intro status elapsed
    rw [LogFilter.record]
    split <;> rfl
  rw [answer_eq]
  let inner := site.guarded around (Route.ofPath? req.target.path) (site.known around req w)
    (identifiedIn around w)
  let record := site.filter.record (site.known around req w) inner.1.status (inner.2.now - w.now)
  refine ⟨inner.1, notes.account, notes ++ record, inner.2.now - w.now, htally, rfl, ?_, ?_⟩
  · rw [← List.append_assoc]
    exact congrArg (· ++ record) hnotes
  · rw [Journal.account_append, hrecord]

end

end Site

end Gatehouse
