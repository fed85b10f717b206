import Gatehouse.Proofs.Layer.FailsClosed
import Gatehouse.Proofs.Layer.Gates
import Gatehouse.Proofs.Site.Serving

/-!
# Who purges the cache

Of all the services that make up a site, a single one deletes keys by a pattern, and every layer
around it has a say in whether it is reached. `PurgesIf` states of an answer that the pattern was
deleted if something is the case and that nothing was deleted otherwise. It is proved of the route
of the purge, and then carried outwards: each layer adds its own condition, or none.

**`Site.answer_purges`** is what arrives at the outside. A request purges the cache if and only if
it submits to the purge, is within the limit of its client, and brings the token of an
administrator. This is for stores of any kind, which may fail at every call, and for any validator
and directory. Read along a run, it says that whatever was deleted was deleted for an administrator:
`Site.exists_mayPurge_of_mem_deleted`.
-/

namespace Gatehouse

/-! ## Administrators -/

namespace Headers

variable {h : Headers} {around : Surroundings} {cookie : String} {now : Instant} {u : User}

/-- The header fields bring a token that is valid, and its user is known. -/
theorem authenticate_eq_ok_iff : h.authenticate around cookie now = .ok u ↔
    ∃ token claims, h.Brings cookie token ∧ around.validate now token = .ok claims ∧
      around.findUser claims.sub = .ok u := by
  have hidentifies := h.identifies_authenticate around cookie now
  constructor
  · intro hwho
    rw [hwho] at hidentifies
    cases hidentifies with
    | known hbrings hvalidate hfind => exact ⟨_, _, hbrings, hvalidate, hfind⟩
  · rintro ⟨token, claims, hbrings, hvalidate, hfind⟩
    generalize h.authenticate around cookie now = who at hidentifies
    cases hidentifies with
    | missing hnone => exact absurd hnone (not_bringsNone_of_brings hbrings)
    | refused hbrings' herror =>
      rw [← hbrings.unique hbrings', hvalidate] at herror
      cases herror
    | unresolved hbrings' hvalidate' herror =>
      rw [← hbrings.unique hbrings', hvalidate] at hvalidate'
      cases hvalidate'
      rw [hfind] at herror
      cases herror
    | known hbrings' hvalidate' hfind' =>
      rw [← hbrings.unique hbrings', hvalidate] at hvalidate'
      cases hvalidate'
      rw [hfind] at hfind'
      cases hfind'
      rfl

end Headers

namespace Request

/-- The cookie carries a token that is valid, and its subject is a user who is an administrator. -/
def ByAdministrator (req : Request) (around : Surroundings) (cookie : String) (now : Instant) :
    Prop :=
  ∃ token claims u, req.headers.Brings cookie token ∧ around.validate now token = .ok claims ∧
    around.findUser claims.sub = .ok u ∧ u.role = "admin"

theorem byAdministrator_iff {req : Request} {around : Surroundings} {cookie : String}
    {now : Instant} : req.ByAdministrator around cookie now ↔
      ∃ u, req.headers.authenticate around cookie now = .ok u ∧ u.role = "admin" := by
  simp only [Headers.authenticate_eq_ok_iff]
  constructor
  · rintro ⟨token, claims, u, hbrings, hvalidate, hfind, hrole⟩
    exact ⟨u, ⟨token, claims, hbrings, hvalidate, hfind⟩, hrole⟩
  · rintro ⟨u, ⟨token, claims, hbrings, hvalidate, hfind⟩, hrole⟩
    exact ⟨token, claims, u, hbrings, hvalidate, hfind, hrole⟩

end Request

/-! ## Deleting a pattern, or nothing -/

section

variable {σ : Type} {pattern : String} {allowed allowed' : Prop} {w w' w'' : World σ}

/-- From one state to a later one, no keys were deleted by a pattern. -/
def World.Keeps (w w' : World σ) : Prop :=
  ∃ notes : Journal, w'.journal = w.journal ++ notes ∧ notes.deleted = []

namespace World.Keeps

theorem refl (w : World σ) : w.Keeps w := ⟨[], (List.append_nil _).symm, rfl⟩

theorem trans (h : w.Keeps w') (h' : w'.Keeps w'') : w.Keeps w'' := by
  obtain ⟨notes, hnotes, hdeleted⟩ := h
  obtain ⟨notes', hnotes', hdeleted'⟩ := h'
  refine ⟨notes ++ notes', ?_, ?_⟩
  · rw [hnotes', hnotes, List.append_assoc]
  · rw [Journal.deleted_append, hdeleted, hdeleted', List.append_nil]

end World.Keeps

/-- The handler of the purge ran for a user, then the keys of a pattern were deleted, and no keys
were deleted besides. -/
structure World.Purged (pattern : String) (u : User) (before after : Journal) (w w' : World σ) :
    Prop where
  journal_eq : w'.journal = w.journal ++
    (before ++ [.event (.purgeRequested u), .call ⟨.deleteByPattern, pattern⟩] ++ after)
  before_deleted : before.deleted = []
  after_deleted : after.deleted = []

namespace World.Purged

variable {u : User} {before after : Journal}

theorem of_keeps (h : w.Keeps w') (hpurged : w'.Purged pattern u before after w'') :
    ∃ before, w.Purged pattern u before after w'' := by
  obtain ⟨notes, hnotes, hdeleted⟩ := h
  refine ⟨notes ++ before, ?_, ?_, hpurged.after_deleted⟩
  · simp only [hpurged.journal_eq, hnotes, List.append_assoc]
  · rw [Journal.deleted_append, hdeleted, hpurged.before_deleted, List.append_nil]

theorem keeps (hpurged : w.Purged pattern u before after w') (h : w'.Keeps w'') :
    ∃ after, w.Purged pattern u before after w'' := by
  obtain ⟨notes, hnotes, hdeleted⟩ := h
  refine ⟨after ++ notes, ?_, hpurged.before_deleted, ?_⟩
  · simp only [hnotes, hpurged.journal_eq, List.append_assoc]
  · rw [Journal.deleted_append, hdeleted, hpurged.after_deleted, List.append_nil]

/-- The pattern was deleted once, and nothing else. -/
theorem exists_notes (hpurged : w.Purged pattern u before after w') :
    ∃ notes : Journal, w'.journal = w.journal ++ notes ∧ notes.deleted = [pattern] := by
  refine ⟨_, hpurged.journal_eq, ?_⟩
  rw [Journal.deleted_append, Journal.deleted_append, hpurged.before_deleted,
    hpurged.after_deleted]
  rfl

end World.Purged

/-- The keys of a pattern were deleted if that was allowed, and no keys otherwise. -/
structure PurgesIf (pattern : String) (allowed : Prop) (w : World σ)
    (answer : Response × World σ) : Prop where
  kept : ¬ allowed → w.Keeps answer.2
  purged : allowed → answer.1.status = .noContent ∧
    ∃ u before after, w.Purged pattern u before after answer.2

namespace PurgesIf

variable {answer : Response × World σ} {r : Response}

theorem of_not (hdenied : ¬ allowed) (h : w.Keeps answer.2) : PurgesIf pattern allowed w answer :=
  ⟨fun _ ↦ h, fun hallowed ↦ absurd hallowed hdenied⟩

theorem congr (h : PurgesIf pattern allowed w answer) (hiff : allowed ↔ allowed') :
    PurgesIf pattern allowed' w answer :=
  ⟨fun hdenied ↦ h.kept (mt hiff.mp hdenied), fun hallowed ↦ h.purged (hiff.mpr hallowed)⟩

/-- Before and after, anything may happen that deletes nothing. -/
theorem around (h : PurgesIf pattern allowed w' answer) (hbefore : w.Keeps w')
    (hafter : answer.2.Keeps w'') (hstatus : r.status = answer.1.status) :
    PurgesIf pattern allowed w (r, w'') where
  kept hdenied := hbefore.trans ((h.kept hdenied).trans hafter)
  purged hallowed := by
    obtain ⟨hnoContent, u, before, after, hpurged⟩ := h.purged hallowed
    obtain ⟨before', hpurged⟩ := hpurged.of_keeps hbefore
    obtain ⟨after', hpurged⟩ := hpurged.keeps hafter
    exact ⟨hstatus.trans hnoContent, u, before', after', hpurged⟩

end PurgesIf

end

section

variable {σ : Type} [CounterStore σ] [CacheStore σ] {w w' : World σ} {req : Request}

/-- Anything may happen besides counting but that keys are deleted by a pattern. -/
def Aside.Scope.keeping (client : String) : Aside.Scope where
  client := client
  own _ := True
  purges _ := False

theorem Aside.keeps {client : String} (h : Aside (.keeping client) w w') : w.Keeps w' := by
  obtain ⟨notes, hnotes⟩ := h.exists_notes
  exact ⟨notes, hnotes.journal_eq, List.eq_nil_iff_forall_not_mem.mpr hnotes.purges⟩

/-! ## From the inside out -/

namespace Service

omit [CounterStore σ] in
/-- The handler of the purge and the deletion that follows it. -/
theorem purgesIf_invalidating (pattern : String) {u : User} (hknown : req.user = some u)
    (w : World σ) : PurgesIf pattern True w (invalidating pattern Handlers.purge req w) := by
  refine ⟨fun h ↦ absurd trivial h, fun _ ↦ ?_⟩
  have hpurge : (Handlers.purge req w : Response × World σ) = (.ofStatus .noContent,
      { w with journal := w.journal ++ [.event (.purgeRequested u)] }) := by
    simp only [Handlers.purge, Request.currentUser, hknown]
    rfl
  rcases hdelete : CacheStore.deleteByPattern w.now pattern w.store with ⟨e | n, s⟩ <;>
    simp only [invalidating, invalidation, bind, StateT.bind, hpurge, Run.deleteByPattern,
      Run.call, hdelete]
  · refine ⟨rfl, u, [], [.metric (.cacheInvalidation false),
      .event (.invalidationFailed pattern e)], ?_, rfl, rfl⟩
    simp [Run.count, Run.log, Run.note]
    rfl
  · refine ⟨rfl, u, [], [.metric (.cacheInvalidation true)], ?_, rfl, rfl⟩
    simp [Run.count, Run.note]
    rfl

omit [CounterStore σ] [CacheStore σ] in
theorem keeps_turnedAway (gate : Gate) (f : Failure) (req : Request) (w : World σ) :
    w.Keeps (gate.turnedAway f req w).2 :=
  ⟨_, rfl, rfl⟩

omit [CounterStore σ] [CacheStore σ] in
/-- Browsers that only ask what is allowed get no further. Nothing is lost where only those who
submit something may purge. -/
theorem purgesIf_sharedWith {pattern : String} {allowed : Prop} (origins : Origins)
    {next : Service σ} (h : PurgesIf pattern allowed w (next req w))
    (hpost : allowed → req.method = .post) :
    PurgesIf pattern allowed w (sharedWith origins next req w) := by
  rw [sharedWith]
  split_ifs with hoptions
  · have hdenied : ¬ allowed := fun hallowed ↦ by
      rw [hpost hallowed] at hoptions
      exact absurd hoptions (by decide)
    exact .of_not hdenied (.refl w)
  · exact h.around (.refl w) (.refl _) rfl

omit [CacheStore σ] in
/-- A limiter adds its own condition, and counts a request before anything else happens. -/
theorem purgesIf_limited {pattern : String} {allowed : Prop} (l : Limiter) {next : Service σ}
    (h : ∀ w', w'.now = w.now → PurgesIf pattern allowed w' (next req w')) :
    PurgesIf pattern ((∃ n ≤ l.limit, (CounterStore.increment w.now
        (l.key (Context.of req).clientIp) l.window l.policy w.store).1 = .ok n) ∧ allowed)
      w (limited l next req w) := by
  rcases hcount : CounterStore.increment w.now (l.key (Context.of req).clientIp) l.window l.policy
    w.store with ⟨e | n, s⟩
  · rw [limited_of_error hcount]
    exact .of_not (by simp) ⟨_, rfl, rfl⟩
  rcases hleft : CounterStore.ttl w.now (l.key (Context.of req).clientIp) s with ⟨left, s'⟩
  rcases Nat.lt_or_ge l.limit n with hlt | hle
  · have hdenied :
        ¬ ((∃ m ≤ l.limit, (Except.ok n : Except StoreError Nat) = .ok m) ∧ allowed) := by
      rintro ⟨⟨m, hm, heq⟩, -⟩
      cases heq
      exact absurd hm (Nat.not_le.mpr hlt)
    rw [limited_of_lt hcount hleft hlt]
    exact .of_not hdenied ⟨_, rfl, rfl⟩
  · have hiff : allowed ↔
        (∃ m ≤ l.limit, (Except.ok n : Except StoreError Nat) = .ok m) ∧ allowed :=
      ⟨fun hallowed ↦ ⟨⟨n, hle, rfl⟩, hallowed⟩, And.right⟩
    let counted : World σ :=
      { w with
        store := s'
        journal := w.journal ++ [.call ⟨.increment, l.key (Context.of req).clientIp⟩,
          .call ⟨.ttl, l.key (Context.of req).clientIp⟩] }
    have hkeeps : w.Keeps counted := ⟨_, rfl, rfl⟩
    rw [limited_of_le hcount hleft hle]
    exact ((h counted rfl).congr hiff).around hkeeps (.refl _) rfl

end Service

namespace Site

variable {s : Settings} {started : Instant} {site : Site}

/-- The route of the purge lets administrators purge, and nobody else. -/
theorem purgesIf_served (site : Site) (around : Surroundings) (req : Request) (w : World σ) :
    PurgesIf site.settings.purgePattern
      (req.ByAdministrator around site.settings.authCookie w.now) w
      (site.served around .purge req w) := by
  have hserved : site.served around .purge req w = Service.gated around .admin
      site.settings.authCookie
      (Service.invalidating site.settings.purgePattern Handlers.purge) req w := rfl
  rw [hserved]
  rcases hwho : req.headers.authenticate around site.settings.authCookie w.now with f | u
  · have hdenied : ¬ req.ByAdministrator around site.settings.authCookie w.now := by
      rw [Request.byAdministrator_iff, hwho]
      rintro ⟨u, heq, -⟩
      cases heq
    rw [Service.gated_of_refused .admin hwho rfl rfl]
    exact .of_not hdenied (Service.keeps_turnedAway _ _ _ _)
  · have hiff : req.ByAdministrator around site.settings.authCookie w.now ↔ u.role = "admin" := by
      rw [Request.byAdministrator_iff, hwho]
      refine ⟨?_, fun hrole ↦ ⟨u, rfl, hrole⟩⟩
      rintro ⟨u', heq, hrole⟩
      cases heq
      exact hrole
    rw [Service.gated_admin_of_ok hwho]
    split_ifs with hrole
    · have hknown : ({ req with user := some u } : Request).user = some u := rfl
      exact (Service.purgesIf_invalidating _ hknown w).congr
        (iff_of_true trivial (hiff.mpr hrole))
    · exact .of_not (mt hiff.mp hrole) (Service.keeps_turnedAway _ _ _ _)

/-- What stands behind the limiter lets those administrators purge who submit to the purge. -/
theorem purgesIf_dispatch (site : Site) (around : Surroundings) (route : Option Route)
    (req : Request) (w : World σ) :
    PurgesIf site.settings.purgePattern (req.method = .post ∧ route = some .purge ∧
        req.ByAdministrator around site.settings.authCookie w.now) w
      (site.dispatch around route req w) := by
  by_cases hroute : route = some .purge
  · subst hroute
    have hserves : Route.purge.serves req.method = true ↔ req.method = .post := by
      simp [Route.serves, Route.methods]
    rw [dispatch]
    split_ifs with hserved
    · refine (site.purgesIf_served around req w).congr ?_
      simp [hserves.mp hserved]
    · exact .of_not (fun h ↦ hserved (hserves.mpr h.1)) (.refl w)
  · have hworks : (site.dispatch around route : Service σ).WorksAside
        (.keeping (Context.of req).clientIp) :=
      site.aside_dispatch around route (fun _ ↦ trivial) fun heq ↦ absurd heq hroute
    exact .of_not (fun h ↦ hroute h.2.1) (hworks req rfl w).1.keeps

/-- What a request needs to purge the cache of a site when its route has been found. -/
def LetsPurge (site : Site) (around : Surroundings) (route : Option Route) (req : Request)
    (w : World σ) : Prop :=
  (∀ l ∈ site.limiter, ∃ n ≤ l.limit, (CounterStore.increment w.now
    (l.key (req.clientIp site.trust)) l.window l.policy w.store).1 = .ok n) ∧
  req.method = .post ∧ route = some .purge ∧
    req.ByAdministrator around site.settings.authCookie w.now

theorem purgesIf_guarded (site : Site) (around : Surroundings) (route : Option Route)
    {req : Request} (hknown : (Context.of req).clientIp = req.clientIp site.trust) (w : World σ) :
    PurgesIf site.settings.purgePattern (site.LetsPurge around route req w) w
      (site.guarded around route req w) := by
  have hinner : ∀ w' : World σ, w'.now = w.now → PurgesIf site.settings.purgePattern
      (req.method = .post ∧ route = some .purge ∧
        req.ByAdministrator around site.settings.authCookie w.now) w'
      (Service.sharedWith (Origins.ofTexts site.settings.corsOrigins)
        (site.dispatch around route) req w') := by
    intro w' hnow
    rw [← hnow]
    exact Service.purgesIf_sharedWith _ (site.purgesIf_dispatch around route req w') fun h ↦ h.1
  rw [guarded, LetsPurge, ← hknown]
  rcases site.limiter with _ | l
  · exact (hinner w rfl).congr (by simp)
  · exact (Service.purgesIf_limited l hinner).congr (by simp)

/-- The marks and the log have no say in the matter. -/
theorem purgesIf_passed (site : Site) (around : Surroundings) (route : Option Route)
    (req : Request) (w : World σ) :
    PurgesIf site.settings.purgePattern (site.LetsPurge around route req w) w
      (site.passed around route req w) := by
  let known : Request :=
    { req with context := some (.capture req (Uuid.ofRandom (around.random w.drawn)) site.trust) }
  let filter : LogFilter := ⟨site.settings.includedPaths, site.settings.excludedPaths⟩
  have hknown : known.Shows (req.clientIp site.trust) := rfl
  have hguarded : PurgesIf site.settings.purgePattern (site.LetsPurge around route req w)
      (identifiedIn around w) (site.guarded around route known (identifiedIn around w)) :=
    site.purgesIf_guarded around route hknown (identifiedIn around w)
  obtain ⟨hlogged, hresponse⟩ := Service.aside_logged (.keeping (req.clientIp site.trust))
    (site.guarded around route) around filter hknown (identifiedIn around w)
  have hstatus : (Service.logged filter (site.guarded around route) known
      (identifiedIn around w)).1.status
        = (site.guarded around route known (identifiedIn around w)).1.status := by
    rw [hresponse]
  have hdrawn : w.Keeps (identifiedIn around w) := .refl w
  rw [passed_eq]
  exact hguarded.around hdrawn hlogged.keeps hstatus

theorem purgesIf_answer (site : Site) (around : Surroundings) (req : Request) (w : World σ) :
    PurgesIf site.settings.purgePattern
      (site.LetsPurge around (Route.ofPath? req.target.path) req w) w
      (site.answer around req w) := by
  rcases hroute : Route.ofPath? req.target.path with _ | r <;> simp only [answer, hroute]
  · have hpassed := site.purgesIf_passed around none req w
    split_ifs
    · exact hpassed.around (.refl w) (.refl _) rfl
    · exact hpassed.around (.refl w) (.refl _) rfl
  · have hpassed := site.purgesIf_passed around (some r) { req with route := r.path } w
    exact hpassed.around (.refl w) (.refl _) rfl

end Site

/-! ## What a request needs -/

/-- What a request needs to purge the cache under some settings. -/
structure Request.MayPurge (req : Request) (s : Settings) (around : Surroundings) (w : World σ) :
    Prop where
  method_eq : req.method = .post
  route_eq : Route.ofPath? req.target.path = some .purge
  /-- If requests are limited, this one is counted, and the count is within the limit. -/
  within : s.isLimited = true → ∃ n ≤ s.limit, (CounterStore.increment w.now
    (s.counterPrefix ++ req.clientIp (.ofTexts s.trustedProxies)) s.window s.policy w.store).1
      = .ok n
  administrator : req.ByAdministrator around s.authCookie w.now

namespace Site

variable {s : Settings} {started : Instant} {site : Site} {around : Surroundings}

omit [CacheStore σ] in
theorem letsPurge_iff (hstart : start s started = .ok site) :
    site.LetsPurge around (Route.ofPath? req.target.path) req w ↔ req.MayPurge s around w := by
  obtain rfl := settings_of_start hstart
  obtain ⟨hunlimited, hlimited⟩ := limiter_of_start hstart
  cases h : site.settings.isLimited with
  | false =>
    rw [LetsPurge, hunlimited h]
    exact ⟨fun ⟨_, hmethod, hroute, hadministrator⟩ ↦
        ⟨hmethod, hroute, fun h' ↦ absurd (h.symm.trans h') (by decide), hadministrator⟩,
      fun ⟨hmethod, hroute, _, hadministrator⟩ ↦ ⟨nofun, hmethod, hroute, hadministrator⟩⟩
  | true =>
    obtain ⟨l, hl, hlimit, hwindow, hprefix, hpolicy⟩ := hlimited h
    rw [LetsPurge, hl]
    constructor
    · rintro ⟨hwithin, hmethod, hroute, hadministrator⟩
      refine ⟨hmethod, hroute, fun _ ↦ ?_, hadministrator⟩
      rw [← hlimit, ← hwindow, ← hprefix, ← hpolicy]
      exact hwithin l rfl
    · rintro ⟨hmethod, hroute, hwithin, hadministrator⟩
      refine ⟨fun l' hl' ↦ ?_, hmethod, hroute, hadministrator⟩
      obtain rfl := Option.some.inj hl'
      have hcounted := hwithin h
      rwa [← hlimit, ← hwindow, ← hprefix, ← hpolicy] at hcounted

/-- **Only an administrator purges the cache.** Whatever the settings, the request, the store and
its failures, the validator and the directory are, keys are deleted by a pattern if and only if the
request may purge the cache. They are then deleted once, by the pattern of the settings, when the
handler has run, and the response is empty whatever becomes of the deletion. -/
theorem answer_purges (hstart : start s started = .ok site) (around : Surroundings) (req : Request)
    (w : World σ) :
    ∃ notes : Journal, (site.answer around req w).2.journal = w.journal ++ notes ∧
      (notes.deleted ≠ [] ↔ req.MayPurge s around w) ∧
      (req.MayPurge s around w → (site.answer around req w).1.status = .noContent ∧
        ∃ (u : User) (before after : Journal), notes = before ++
          [.event (.purgeRequested u), .call ⟨.deleteByPattern, s.purgePattern⟩] ++ after ∧
          before.deleted = [] ∧ after.deleted = []) := by
  have hpurges := (site.purgesIf_answer around req w).congr (letsPurge_iff hstart)
  rw [settings_of_start hstart] at hpurges
  by_cases hmay : req.MayPurge s around w
  · obtain ⟨hstatus, u, before, after, hpurged⟩ := hpurges.purged hmay
    refine ⟨_, hpurged.journal_eq, iff_of_true ?_ hmay, fun _ ↦ ⟨hstatus, u, before, after, rfl,
      hpurged.before_deleted, hpurged.after_deleted⟩⟩
    simp [Journal.deleted, Journal.calls]
  · obtain ⟨notes, hnotes, hdeleted⟩ := hpurges.kept hmay
    exact ⟨notes, hnotes, iff_of_false (not_not_intro hdeleted) hmay, fun h ↦ absurd h hmay⟩

/-- An administrator purges the cache of a site although the limiter counts requests. -/
theorem answer_purges_administrator :
    let s : Settings := Settings.default
    let site : Site :=
      ⟨s, 0, some ⟨100, Duration.ofSecs 60, "rate_limit:", .rolling, by decide, by decide⟩⟩
    let around : Surroundings :=
      ⟨fun _ _ ↦ .ok ⟨"root", 1, 0⟩, fun id ↦ .ok ⟨id, "root@example.com", "Root", "admin"⟩, id⟩
    let purge : Request := ⟨.post, ⟨"/admin/cache/purge", none⟩,
      [("cookie", utf8 "auth_token=token")], some (.v4 0x01020304), none, none, none⟩
    let w : World MemoryStore := .start (.new 0) 0
    start s 0 = .ok site ∧ purge.MayPurge s around w ∧
      (site.answer around purge w).1.status = .noContent ∧
      (site.answer around purge w).2.journal.deleted ≠ [] := by
  intro s site around purge w
  have hstart : start s 0 = .ok site := rfl
  obtain ⟨notes, hnotes, hdeleted, hpurged⟩ := answer_purges hstart around purge w
  have hmay : purge.MayPurge s around w := by
    refine ⟨rfl, by decide +kernel, fun _ ↦ ⟨1, by decide, by decide +kernel⟩, "token",
      ⟨"root", 1, 0⟩, ⟨"root", "root@example.com", "Root", "admin"⟩, ⟨by decide +kernel, by decide⟩,
      rfl, rfl, rfl⟩
  refine ⟨hstart, hmay, (hpurged hmay).1, ?_⟩
  rw [hnotes, Journal.deleted_append]
  simpa using fun _ ↦ hdeleted.mpr hmay

/-! ## A site at work -/

/-- A step deletes nothing, or it is a request that may purge the cache. -/
theorem deleted_step (hstart : start s started = .ok site) (around : Surroundings)
    (v : Serving σ) (st : Serving.Step) :
    (v.step site around st).world.journal.deleted = v.world.journal.deleted ∨
      (v.step site around st).world.journal.deleted
        = v.world.journal.deleted ++ [s.purgePattern] ∧
      ∃ req : Request, st = .request req ∧ req.MayPurge s around v.world := by
  by_cases hst : ∀ req, st ≠ .request req
  · obtain ⟨notes, hnotes, -, -, hdeleted⟩ := v.exists_notes_other site around hst
    left
    rw [hnotes, Journal.deleted_append, hdeleted, List.append_nil]
  · obtain ⟨req, hreq⟩ := not_forall.mp hst
    obtain rfl := not_not.mp hreq
    have hpurges := (site.purgesIf_answer around req v.world).congr (letsPurge_iff hstart)
    rw [settings_of_start hstart] at hpurges
    by_cases hmay : req.MayPurge s around v.world
    · obtain ⟨-, u, before, after, hpurged⟩ := hpurges.purged hmay
      obtain ⟨notes, hnotes, hdeleted⟩ := hpurged.exists_notes
      refine .inr ⟨?_, req, rfl, hmay⟩
      exact (congrArg Journal.deleted hnotes).trans (by rw [Journal.deleted_append, hdeleted])
    · obtain ⟨notes, hnotes, hdeleted⟩ := hpurges.kept hmay
      refine .inl ((congrArg Journal.deleted hnotes).trans ?_)
      rw [Journal.deleted_append, hdeleted, List.append_nil]

/-- Whatever a site deletes by a pattern in the course of its work, it deletes by the pattern of its
settings and for a request that may purge the cache. -/
theorem exists_mayPurge_of_mem_deleted (hstart : start s started = .ok site) {store : σ}
    {now : Instant} {steps : List Serving.Step} {pattern : String}
    (h : pattern ∈ (Serving.run site around store now steps).world.journal.deleted) :
    pattern = s.purgePattern ∧ ∃ before req after, steps = before ++ .request req :: after ∧
      req.MayPurge s around (Serving.run site around store now before).world := by
  induction steps using List.reverseRecOn with
  | nil => cases h
  | append_singleton steps st ih =>
    have hrun : Serving.run site around store now (steps ++ [st])
        = (Serving.run site around store now steps).step site around st := by
      rw [Serving.run, List.foldl_append]
      rfl
    have hearlier (h : pattern ∈ (Serving.run site around store now steps).world.journal.deleted) :
        pattern = s.purgePattern ∧ ∃ before req after,
          steps ++ [st] = before ++ .request req :: after ∧
          req.MayPurge s around (Serving.run site around store now before).world := by
      obtain ⟨hpattern, before, req, after, rfl, hmay⟩ := ih h
      exact ⟨hpattern, before, req, after ++ [st], by simp, hmay⟩
    rw [hrun] at h
    rcases deleted_step hstart around (Serving.run site around store now steps) st
      with hsame | ⟨hmore, req, rfl, hmay⟩
    · exact hearlier (hsame ▸ h)
    · rw [hmore, List.mem_append, List.mem_singleton] at h
      rcases h with h | rfl
      · exact hearlier h
      · exact ⟨rfl, steps, req, [], rfl, hmay⟩

end Site

end

end Gatehouse
