import Gatehouse.Proofs.Limiter.Traffic
import Gatehouse.Proofs.Site.Aside

/-!
# A site at work

A request is counted once, before anything is stored or deleted, as the client that the site takes
it to come from; all else that happens to it happens aside. This is **`Site.aside_answer`**.

Requests overlap: between two store calls of one there may be those of others, and any amount of
time. So the moments of a site follow each other by single steps, `Site.Moment.Step`, each of which
is a step of some request: it is counted, or something happens to it aside. A site that answers one
request at a time, while the bodies of its answers are read or dropped in any order, is a case of
this: `Site.Serving` says how it works, step by step, and **`Site.Serving.leads_step`** that its
steps are steps between moments.
-/

namespace Gatehouse

/-! ## Limiters and loggers -/

section

variable {σ : Type} [CounterStore σ] [CacheStore σ] {scope : Aside.Scope}

/-- When it has counted, a check does nothing but ask. -/
theorem Limiter.aside_check (l : Limiter) (client : String) (w : World σ) :
    Aside scope (l.count client w).2 (l.check client w).2 :=
  (Run.StaysAside.after (fun _ ↦ True) (fun _ ↦ True) ⟨.refl, trivial⟩ fun answer _ ↦ by
    cases answer with
    | error e => exact Run.aside_pure trivial
    | ok n => exact (Run.aside_ttl _).bind fun _ _ ↦ Run.aside_now.bind fun _ _ ↦
        Run.aside_pure trivial).1

omit [CacheStore σ] in
/-- A check lets a client through if the count is within the limit. -/
theorem Limiter.admits_check (l : Limiter) (client : String) (w : World σ) :
    (match (l.check client w).1 with
      | .error _ => false
      | .ok d => d.admitted) =
      match (l.count client w).1 with
      | .error _ => false
      | .ok n => Decidable.decide (n ≤ l.limit) := by
  rw [check_eq]
  rcases hcount : l.count client w with ⟨e | n, w'⟩ <;>
    simp only [bind, StateT.bind, hcount] <;>
    rfl

variable {next : Service σ} {req : Request}

theorem Service.aside_limited (l : Limiter) (h : next.WorksAside scope)
    (hreq : req.Shows scope.client) (w : World σ) :
    Aside scope (l.count scope.client w).2 (limited l next req w).2 ∧
      (limited l next req w).1.body.CopiesTo scope.own := by
  have hclient : (Context.of req).clientIp = scope.client := hreq
  simp only [limited, hclient]
  refine Run.StaysAside.after (fun _ ↦ True) (fun r : Response ↦ r.body.CopiesTo scope.own)
    ⟨l.aside_check scope.client w, trivial⟩ fun answer _ ↦ ?_
  cases answer with
  | error e => exact (Run.aside_count _).bind fun _ _ ↦ aside_reject _ hreq _
  | ok d =>
    cases hadmitted : d.admitted with
    | true =>
      simp only [hadmitted]
      exact (h req hreq).bind fun _ hr ↦ Run.aside_pure hr
    | false =>
      simp only [hadmitted]
      exact (Run.aside_count _).bind fun _ _ ↦ (aside_reject _ hreq _).bind fun _ hr ↦
        Run.aside_now.bind fun _ _ ↦ Run.aside_pure hr

theorem Service.aside_logged (scope : Aside.Scope) (next : Service σ) (around : Surroundings)
    (filter : LogFilter) (hreq : req.Shows scope.client) (w : World σ) :
    Aside scope (next req w).2 (logged filter next req w).2 ∧
      (logged filter next req w).1 = (next req w).1 :=
  aside_leave_logger around filter hreq w (next req w).1 (next req w).2

end

namespace Site

/-! ## Starting -/

section

variable {s : Settings} {started : Instant} {site : Site}

theorem settings_of_start (hstart : start s started = .ok site) : site.settings = s := by
  rw [start] at hstart
  cases hlimiter : limiterOf s with
  | error e =>
    rw [hlimiter] at hstart
    cases hstart
  | ok limiter =>
    rw [hlimiter] at hstart
    cases hstart
    rfl

/-- What the settings of a site are to its limiter. -/
theorem limiter_of_start (hstart : start s started = .ok site) :
    (s.isLimited = false → site.limiter = none) ∧
      (s.isLimited = true → ∃ l, site.limiter = some l ∧ l.limit = s.limit ∧
        l.window = s.window ∧ l.keyPrefix = s.counterPrefix ∧ l.policy = s.policy) := by
  rw [start, limiterOf] at hstart
  cases hlimited : s.isLimited with
  | false =>
    rw [hlimited] at hstart
    cases hstart
    exact ⟨fun _ ↦ rfl, nofun⟩
  | true =>
    rw [hlimited, if_pos rfl, Limiter.new] at hstart
    split_ifs at hstart <;> cases hstart
    exact ⟨nofun, fun _ ↦ ⟨_, rfl, rfl, rfl, rfl, rfl⟩⟩

end

variable {σ : Type} [CounterStore σ] [CacheStore σ]

/-! ## Answering -/

/-- The peers whose word about a client a site takes. -/
def trust (site : Site) : Net.Trust := .ofTexts site.settings.trustedProxies

/-- The request as its route knows it. -/
def routed (req : Request) : Request :=
  match Route.ofPath? req.target.path with
  | some r => { req with route := some r.path }
  | none => req

/-- Whether the layers that every request passes let it through. -/
def admits (site : Site) (around : Surroundings) (req : Request) (w : World σ) : Bool :=
  (Layer.arrive around site.layers (routed req) w).1.isOk

/-- The state in which a request is counted, if requests are limited: it has been given an id. -/
def identifiedIn (around : Surroundings) (w : World σ) : World σ := (Run.draw around w).2

/-- The state when a request of the client has been counted, if requests are limited. -/
def countedIn (site : Site) (client : String) (w : World σ) : World σ :=
  match site.limiter with
  | none => w
  | some l => (l.count client w).2

/-- Whether a request of the client that is counted now is within the limit, if there is one. -/
def letsIn (site : Site) (client : String) (w : World σ) : Bool :=
  match site.limiter with
  | none => true
  | some l =>
    match (l.count client w).1 with
    | .error _ => false
    | .ok n => n ≤ l.limit

/-- The part of a site that is behind its marks and its log. -/
def guarded (site : Site) (around : Surroundings) (route : Option Route) : Service σ :=
  Service.stacked around (site.limiter.map Layer.rateLimit).toList
    (Service.sharedWith (Origins.ofTexts site.settings.corsOrigins) (site.dispatch around route))

theorem passed_eq (site : Site) (around : Surroundings) (route : Option Route) :
    (site.passed around route : Service σ) = Service.identified around site.trust
      (Service.secured (Service.logged ⟨site.settings.includedPaths, site.settings.excludedPaths⟩
        (site.guarded around route))) := by
  rw [passed, guarded, layers, Service.stacked, List.foldr_append]
  rfl

theorem aside_guarded (site : Site) (around : Surroundings) (route : Option Route) {req : Request}
    {client : String} (hreq : req.Shows client) (w : World σ) :
    Aside (site.scope client) (site.countedIn client w) (site.guarded around route req w).2 ∧
      (site.guarded around route req w).1.body.CopiesTo site.IsCacheKey := by
  have hown : ∀ req, (site.scope client).own (site.cacheSettings.key req) := fun req ↦ ⟨req, rfl⟩
  have hinner := (site.aside_dispatch (σ := σ) around route hown fun _ ↦ rfl).sharedWith
    (Origins.ofTexts site.settings.corsOrigins)
  rw [guarded, countedIn]
  cases site.limiter with
  | none => exact hinner req hreq w
  | some l => exact Service.aside_limited l hinner hreq w

theorem aside_passed (site : Site) (around : Surroundings) (route : Option Route) (req : Request)
    (w : World σ) :
    Aside (site.scope (req.clientIp site.trust))
        (site.countedIn (req.clientIp site.trust) (identifiedIn around w))
        (site.passed around route req w).2 ∧
      (site.passed around route req w).1.body.CopiesTo site.IsCacheKey := by
  let known : Request :=
    { req with context := some (.capture req (Uuid.ofRandom (around.random w.drawn)) site.trust) }
  have hknown : known.Shows (req.clientIp site.trust) := rfl
  obtain ⟨hguarded, hcopies⟩ := site.aside_guarded around route hknown (identifiedIn around w)
  obtain ⟨hlogged, hresponse⟩ := Service.aside_logged (site.scope (req.clientIp site.trust))
    (site.guarded around route) around
    ⟨site.settings.includedPaths, site.settings.excludedPaths⟩ hknown (identifiedIn around w)
  rw [← hresponse] at hcopies
  rw [passed_eq]
  exact ⟨hguarded.trans hlogged, hcopies⟩

theorem copiesTo_finished {own : String → Prop} {r : Response} (h : r.body.CopiesTo own)
    (method : Http.Method) (allowed : Option String) :
    (finished method allowed r).body.CopiesTo own := by
  simp only [finished]
  split_ifs
  · exact trivial
  · exact h

/-- **Besides counting its client, a site answers a request aside.** -/
theorem aside_answer (site : Site) (around : Surroundings) (req : Request) (w : World σ) :
    Aside (site.scope (req.clientIp site.trust))
        (site.countedIn (req.clientIp site.trust) (identifiedIn around w))
        (site.answer around req w).2 ∧
      (site.answer around req w).1.body.CopiesTo site.IsCacheKey := by
  let copies : Response → Prop := fun r ↦ r.body.CopiesTo site.IsCacheKey
  rcases hroute : Route.ofPath? req.target.path with _ | r <;> simp only [answer, hroute]
  · refine Run.StaysAside.after copies copies (site.aside_passed around none req w) fun r hr ↦ ?_
    split_ifs
    · exact Run.aside_pure hr
    · exact Run.aside_pure (copiesTo_finished hr _ _)
  · have hpassed := site.aside_passed around (some r) { req with route := r.path } w
    exact Run.StaysAside.after copies copies hpassed fun r hr ↦
      Run.aside_pure (copiesTo_finished hr _ _)

/-! ## Counting -/

omit [CacheStore σ] in
/-- Counting a client is noted once, and shows no client. -/
theorem exists_notes_countedIn (site : Site) (client : String) (w : World σ) :
    ∃ notes : Journal, (site.countedIn client w).journal = w.journal ++ notes ∧
      notes.counted = (site.limiter.map fun l ↦ l.key client).toList ∧ notes.events = [] ∧
      notes.deleted = [] := by
  rw [countedIn]
  rcases site.limiter with _ | l
  · exact ⟨[], (List.append_nil _).symm, rfl, rfl, rfl⟩
  · exact ⟨_, rfl, rfl, rfl, rfl⟩

theorem clientIp_routed (req : Request) (trust : Net.Trust) :
    (routed req).clientIp trust = req.clientIp trust := by
  rw [routed]
  cases Route.ofPath? req.target.path <;> rfl

theorem isOk_arrive_rateLimit (around : Surroundings) (l : Limiter) (req : Request) (w : World σ) :
    (Layer.arrive around [.rateLimit l] req w).1.isOk =
      match (l.check (Context.of req).clientIp w).1 with
      | .error _ => false
      | .ok d => d.admitted := by
  rcases hcheck : l.check (Context.of req).clientIp w with ⟨e | d, w'⟩
  · simp only [Layer.arrive, Layer.enter, bind, StateT.bind, hcheck]
    rfl
  · cases hadmitted : d.admitted <;>
      simp only [Layer.arrive, Layer.enter, bind, StateT.bind, hcheck, hadmitted] <;>
      rfl

/-- A request passes the layers that every request passes if its client is let in. -/
theorem admits_eq (site : Site) (around : Surroundings) (req : Request) (w : World σ) :
    site.admits around req w = site.letsIn (req.clientIp site.trust) (identifiedIn around w) := by
  let known : Request := { routed req with
    context := some (.capture (routed req) (Uuid.ofRandom (around.random w.drawn)) site.trust) }
  rw [← clientIp_routed, admits, layers, letsIn]
  rcases site.limiter with _ | l
  · rfl
  · exact (isOk_arrive_rateLimit around l known (identifiedIn around w)).trans
      (l.admits_check _ _)

omit [CacheStore σ] in
theorem letsIn_iff {site : Site} {l : Limiter} (hlimiter : site.limiter = some l) (client : String)
    (w : World σ) :
    site.letsIn client w = true ↔ ∃ n ≤ l.limit, (l.count client w).1 = .ok n := by
  rw [letsIn, hlimiter]
  rcases hcount : (l.count client w).1 with e | n <;> simp [hcount]

end Site

/-! ## Moments -/

/-- A request that a site was asked, when its turn to be counted has come. -/
structure Site.Asked where
  request : Request
  time : Instant
  /-- All layers that every request passes let it through. -/
  admitted : Bool

/-- A moment of a site at work. -/
structure Site.Moment (σ : Type) where
  world : World σ
  asked : List Site.Asked

namespace Site.Moment

section

variable {σ : Type} [CounterStore σ] [CacheStore σ] {site : Site} {m m' : Moment σ}

def start (store : σ) (now : Instant) : Moment σ := ⟨World.start store now, []⟩

/-- A single step. The steps of a request that is answered are those of others as well, and come in
between of each other in any order. -/
inductive Step (site : Site) : Moment σ → Moment σ → Prop
  | wait {m : Moment σ} (d : Duration) : Step site m ⟨(Run.advance d m.world).2, m.asked⟩
  | count {m : Moment σ} (req : Request) :
    Step site m ⟨site.countedIn (req.clientIp site.trust) m.world,
      m.asked ++ [⟨req, m.world.now, site.letsIn (req.clientIp site.trust) m.world⟩]⟩
  | aside {m : Moment σ} {w : World σ} (client : String)
      (h : Aside.Step (site.scope client) m.world w) : Step site m ⟨w, m.asked⟩

/-- One moment comes after another. -/
def Leads (site : Site) : Moment σ → Moment σ → Prop := Relation.ReflTransGen (Step site)

theorem Leads.of_aside {w w' : World σ} {client : String} (h : Aside (site.scope client) w w')
    (asked : List Asked) : Leads site ⟨w, asked⟩ ⟨w', asked⟩ := by
  induction h with
  | refl => exact .refl
  | tail _ hstep ih => exact ih.tail (.aside client hstep)

/-- Nothing is deleted but by the pattern of the purge. -/
theorem Step.exists_notes (h : Step site m m') :
    ∃ notes : Journal, m'.world.journal = m.world.journal ++ notes ∧
      ∀ pattern ∈ notes.deleted, pattern = site.settings.purgePattern := by
  cases h with
  | wait d => exact ⟨[], (List.append_nil _).symm, nofun⟩
  | count req =>
    obtain ⟨notes, hnotes, -, -, hdeleted⟩ :=
      site.exists_notes_countedIn (req.clientIp site.trust) m.world
    exact ⟨notes, hnotes, by rw [hdeleted]; exact nofun⟩
  | aside client h =>
    obtain ⟨notes, hnotes⟩ := h.exists_notes
    exact ⟨notes, hnotes.journal_eq, hnotes.purges⟩

theorem Leads.eq_of_mem_deleted {store : σ} {now : Instant} (h : Leads site (.start store now) m) :
    ∀ pattern ∈ m.world.journal.deleted, pattern = site.settings.purgePattern := by
  induction h with
  | refl => exact nofun
  | tail _ hstep ih =>
    obtain ⟨notes, hnotes, hdeleted⟩ := hstep.exists_notes
    rw [hnotes, Journal.deleted_append]
    exact List.forall_mem_append.mpr ⟨ih, hdeleted⟩

end

end Site.Moment

/-! ## One request at a time -/

/-- A state of a site that answers one request at a time. -/
structure Site.Serving (σ : Type) extends Site.Moment σ where
  /-- The bodies of all answers, as far as they were not read yet. -/
  bodies : List Body

namespace Site.Serving

inductive Step where
  | wait (d : Duration)
  | request (req : Request)
  /-- A client asks for a frame of the body with the given place. -/
  | poll (place : Nat)
  | drop (place : Nat)

variable {σ : Type} [CounterStore σ] [CacheStore σ]

def start (store : σ) (now : Instant) : Serving σ := ⟨.start store now, []⟩

/-- One step. A body that was dropped is empty. -/
def step (site : Site) (around : Surroundings) (s : Serving σ) : Step → Serving σ
  | .wait d => { s with world := (Run.advance d s.world).2 }
  | .request req =>
    let (response, w) := site.answer around req s.world
    { world := w
      bodies := s.bodies ++ [response.body]
      asked := s.asked ++ [⟨req, s.world.now, site.admits around req s.world⟩] }
  | .poll place =>
    match s.bodies[place]? with
    | none => s
    | some b =>
      let ((_, rest), w) := b.poll s.world
      { s with world := w, bodies := s.bodies.set place rest }
  | .drop place =>
    match s.bodies[place]? with
    | none => s
    | some b => { s with world := (b.discard s.world).2, bodies := s.bodies.set place .empty }

def run (site : Site) (around : Surroundings) (store : σ) (now : Instant) (steps : List Step) :
    Serving σ :=
  steps.foldl (step site around) (start store now)

/-! ### What a step does -/

variable {scope : Aside.Scope} {s : Serving σ}

/-- **Each request is counted once**, as the client that the site takes it to come from. No other
client is shown, and nothing is deleted but by the pattern of the purge. -/
theorem exists_notes_request (site : Site) (around : Surroundings) (s : Serving σ) (req : Request) :
    ∃ notes : Journal,
      (s.step site around (.request req)).world.journal = s.world.journal ++ notes ∧
      notes.counted = (site.limiter.map fun l ↦ l.key (req.clientIp site.trust)).toList ∧
      notes.Shows (req.clientIp site.trust) ∧
      ∀ pattern ∈ notes.deleted, pattern = site.settings.purgePattern := by
  obtain ⟨notes, hnotes, hcounted, hevents, hdeleted⟩ :=
    site.exists_notes_countedIn (req.clientIp site.trust) (identifiedIn around s.world)
  obtain ⟨notes', h⟩ := (site.aside_answer around req s.world).1.exists_notes
  refine ⟨notes ++ notes', ?_, ?_, ?_, ?_⟩
  · exact h.journal_eq.trans (by rw [hnotes, List.append_assoc]; rfl)
  · rw [Journal.counted_append, hcounted, h.counted_eq, List.append_nil]
  · intro e he
    rw [Journal.events_append, hevents, List.nil_append] at he
    exact h.shows e he
  · rw [Journal.deleted_append, hdeleted, List.nil_append]
    exact h.purges

theorem aside_poll (site : Site) (around : Surroundings)
    (hbodies : ∀ b ∈ s.bodies, b.CopiesTo scope.own) (place : Nat) :
    Aside scope s.world (s.step site around (.poll place)).world ∧
      ∀ b ∈ (s.step site around (.poll place)).bodies, b.CopiesTo scope.own := by
  rcases hplace : s.bodies[place]? with _ | b <;> simp only [step, hplace]
  · exact ⟨.refl, hbodies⟩
  · have hb := hbodies b (List.mem_of_getElem? hplace)
    obtain ⟨haside, hrest⟩ := (Body.aside_poll hb : (b.poll : Run σ _).StaysAside scope _) s.world
    refine ⟨haside, fun b' hb' ↦ ?_⟩
    rcases List.mem_or_eq_of_mem_set hb' with hb' | rfl
    · exact hbodies b' hb'
    · exact hrest

theorem aside_drop (site : Site) (around : Surroundings)
    (hbodies : ∀ b ∈ s.bodies, b.CopiesTo scope.own) (place : Nat) :
    Aside scope s.world (s.step site around (.drop place)).world ∧
      ∀ b ∈ (s.step site around (.drop place)).bodies, b.CopiesTo scope.own := by
  rcases hplace : s.bodies[place]? with _ | b <;> simp only [step, hplace]
  · exact ⟨.refl, hbodies⟩
  · have hb := hbodies b (List.mem_of_getElem? hplace)
    refine ⟨(Body.aside_discard hb s.world).1, fun b' hb' ↦ ?_⟩
    rcases List.mem_or_eq_of_mem_set hb' with hb' | rfl
    · exact hbodies b' hb'
    · exact trivial

theorem copiesTo_true (b : Body) : b.CopiesTo fun _ ↦ True := by
  induction b with
  | full data | framed frames said announced => exact trivial
  | copied inner copy ih => exact ⟨fun _ _ ↦ trivial, ih⟩

/-- What is no request counts nobody, shows nobody and deletes nothing. -/
theorem exists_notes_other (site : Site) (around : Surroundings) (s : Serving σ) {st : Step}
    (hst : ∀ req, st ≠ .request req) :
    ∃ notes : Journal, (s.step site around st).world.journal = s.world.journal ++ notes ∧
      notes.counted = [] ∧ (∀ client, notes.Shows client) ∧ notes.deleted = [] := by
  have hbodies : ∀ b ∈ s.bodies, b.CopiesTo fun _ ↦ True := fun b _ ↦ copiesTo_true b
  have hnotes : ∀ client, ∃ notes : Journal, Aside.Notes ⟨client, fun _ ↦ True, fun _ ↦ False⟩
      s.world (s.step site around st).world notes := by
    intro client
    cases st with
    | wait d => exact ⟨[], (List.append_nil _).symm, rfl, nofun, nofun⟩
    | request req => exact absurd rfl (hst req)
    | poll place => exact (aside_poll site around hbodies place).1.exists_notes
    | drop place => exact (aside_drop site around hbodies place).1.exists_notes
  obtain ⟨notes, h⟩ := hnotes unknownClient
  refine ⟨notes, h.journal_eq, h.counted_eq, fun client ↦ ?_,
    List.eq_nil_iff_forall_not_mem.mpr h.purges⟩
  obtain ⟨notes', h'⟩ := hnotes client
  rw [List.append_cancel_left (h.journal_eq.symm.trans h'.journal_eq)]
  exact h'.shows

/-- What is no request leaves the requests as they are. -/
theorem toMoment_step_of_ne (site : Site) (around : Surroundings) (s : Serving σ) {st : Step}
    (hst : ∀ req, st ≠ .request req) :
    (s.step site around st).toMoment = ⟨(s.step site around st).world, s.asked⟩ := by
  cases st with
  | wait d => rfl
  | request req => exact absurd rfl (hst req)
  | poll place | drop place =>
    simp only [step]
    split <;> rfl

/-! ### Steps as steps between moments -/

/-- **Whatever a site does step by step leads from one moment to another**, and all copies of bodies
go to keys of the cache. -/
theorem leads_step {site : Site} (around : Surroundings)
    (hbodies : ∀ b ∈ s.bodies, b.CopiesTo site.IsCacheKey) (st : Step) :
    Moment.Leads site s.toMoment (s.step site around st).toMoment ∧
      ∀ b ∈ (s.step site around st).bodies, b.CopiesTo site.IsCacheKey := by
  cases st with
  | wait d => exact ⟨.single (.wait d), hbodies⟩
  | request req =>
    obtain ⟨haside, hcopies⟩ := site.aside_answer around req s.world
    have hdraw : Aside.Step (site.scope (req.clientIp site.trust)) s.world
        (identifiedIn around s.world) := .draw around
    have hcount : Moment.Leads site s.toMoment
        ⟨site.countedIn (req.clientIp site.trust) (identifiedIn around s.world),
          s.asked ++ [⟨req, s.world.now, site.admits around req s.world⟩]⟩ := by
      rw [admits_eq]
      exact .tail (.single (.aside _ hdraw)) (.count req)
    refine ⟨hcount.trans (Moment.Leads.of_aside haside _), List.forall_mem_append.mpr ⟨hbodies, ?_⟩⟩
    exact List.forall_mem_singleton.mpr hcopies
  | poll place =>
    have hscope : ∀ b ∈ s.bodies, b.CopiesTo (site.scope unknownClient).own := hbodies
    obtain ⟨haside, hrest⟩ := aside_poll site around hscope place
    have hother : ∀ req, Step.poll place ≠ .request req := nofun
    rw [toMoment_step_of_ne site around s hother]
    exact ⟨Moment.Leads.of_aside haside s.asked, hrest⟩
  | drop place =>
    have hscope : ∀ b ∈ s.bodies, b.CopiesTo (site.scope unknownClient).own := hbodies
    obtain ⟨haside, hrest⟩ := aside_drop site around hscope place
    have hother : ∀ req, Step.drop place ≠ .request req := nofun
    rw [toMoment_step_of_ne site around s hother]
    exact ⟨Moment.Leads.of_aside haside s.asked, hrest⟩

/-- So what a site leaves behind, from its start on, is a moment that comes after the first one. -/
theorem leads_run (site : Site) (around : Surroundings) (store : σ) (now : Instant)
    (steps : List Step) :
    Moment.Leads site (.start store now) (run site around store now steps).toMoment := by
  suffices h : Moment.Leads site (.start store now) (run site around store now steps).toMoment ∧
      ∀ b ∈ (run site around store now steps).bodies, b.CopiesTo site.IsCacheKey from h.1
  induction steps using List.reverseRecOn with
  | nil => exact ⟨.refl, nofun⟩
  | append_singleton steps st ih =>
    rw [run, List.foldl_append]
    obtain ⟨hleads, hbodies⟩ := leads_step around ih.2 st
    exact ⟨ih.1.trans hleads, hbodies⟩

end Site.Serving

end Gatehouse
