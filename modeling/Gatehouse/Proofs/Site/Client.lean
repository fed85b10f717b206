import Gatehouse.Proofs.Limiter.Fixed
import Gatehouse.Proofs.Limiter.Rolling
import Gatehouse.Proofs.Site.Keys
import Gatehouse.Proofs.Site.Serving

/-!
# A client does not choose its counter

The network decides who a peer is, and the peer decides what it writes. Where a site has trusted
proxies and the peer is none of them, what it writes is of no account: all its requests are counted
under its address, and no other client is shown for them. This is **`Site.confines`**.

## What follows for its requests

Counters of peers, counters of others and responses share one store. Under their own keys they do
not meet (`Cache.key_ne_append_peerText`), so a client sees of a site what it would see of a limiter
that is all there is: at every moment its requests look like a traffic of checks,
`Site.Moment.LooksLike`, and the bounds on traffic are bounds on its requests. The exception is the
purge. It deletes whatever matches its pattern, and if the keys of responses are set to begin like
those of counters, then a counter matches as well and starts anew: `Site.purge_admitsAgain`.
-/

namespace Gatehouse

/-! ## Peers -/

theorem Net.Trust.trusts_eq_false {texts : List String} {peer : Option Net.Address}
    (hnetworks : texts.filterMap Net.Network.parse? ≠ [])
    (houtside : ∀ a ∈ peer, ∀ n ∈ texts.filterMap Net.Network.parse?, n.contains a = false) :
    (ofTexts texts).trusts peer = false := by
  have hlimited : (ofTexts texts).networks.isEmpty = false :=
    List.isEmpty_eq_false_iff.mpr hnetworks
  unfold trusts
  rw [hlimited, Bool.false_or]
  cases peer with
  | none => rfl
  | some a =>
    refine List.any_eq_false.mpr fun n hn ↦ ?_
    rw [houtside a rfl n hn]
    exact Bool.false_ne_true

/-- A peer whose word is not taken is its own client, whatever it writes. -/
theorem Request.clientIp_eq_peerText {req : Request} {trust : Net.Trust}
    (h : trust.trusts req.peer = false) : req.clientIp trust = peerText req.peer := by
  rw [clientIp]
  cases req.headers.claimedClient? with
  | none => rfl
  | some claimed => simp only [h, Bool.false_eq_true, if_false]

/-! ## The requests of a client as traffic -/

namespace Site

variable {site : Site} {l : Limiter}

/-- What a limited site with a store in memory leaves behind when it has counted a request. -/
theorem countedIn_eq (hlimiter : site.limiter = some l) (client : String) (w : World MemoryStore) :
    site.countedIn client w =
      { w with
        store := (w.store.increment w.now (l.key client) l.window l.policy).2
        journal := w.journal ++ [.call ⟨.increment, l.key client⟩] } := by
  rw [countedIn, hlimiter]
  rfl

theorem letsIn_eq (hlimiter : site.limiter = some l) (client : String) (w : World MemoryStore) :
    site.letsIn client w =
      decide ((w.store.increment w.now (l.key client) l.window l.policy).1 ≤ l.limit) := by
  rw [letsIn, hlimiter]
  rfl

end Site

namespace Site.Moment

variable {site : Site} {l : Limiter} {ip : String} {m m' : Moment MemoryStore}
  {t : Traffic MemoryStore}

/-- The requests that were counted as those of a client. -/
def askedAs (site : Site) (ip : String) (m : Moment σ) : List Asked :=
  m.asked.filter fun a ↦ a.request.clientIp site.trust = ip

/-- What a client sees of a site is what it would see of a limiter alone. -/
structure LooksLike (site : Site) (l : Limiter) (ip : String) (m : Moment MemoryStore)
    (t : Traffic MemoryStore) : Prop where
  isolated : t.Isolated l
  now_eq : t.world.now = m.world.now
  live?_eq : ∀ later, m.world.now ≤ later →
    m.world.store.live? later (l.key ip) = t.world.store.live? later (l.key ip)
  asked_eq : (m.askedAs site ip).map (fun a ↦ (a.time, a.admitted)) =
    t.counts.zipIdx.map fun c ↦ (c.1.time, (t.verdicts.find? c.2).any Decision.admitted)
  client_eq : ∀ c ∈ t.counts, c.client = ip

namespace LooksLike

theorem start (site : Site) (l : Limiter) (ip : String) (now : Instant) :
    LooksLike site l ip (.start (.new now) now) (.start (.new now) now) where
  isolated := .start l now
  now_eq := rfl
  live?_eq _ _ := rfl
  asked_eq := rfl
  client_eq := nofun

theorem wait (h : LooksLike site l ip m t) (d : Duration) :
    LooksLike site l ip ⟨(Run.advance d m.world).2, m.asked⟩ (t.step l (.wait d)) where
  isolated := h.isolated.wait d
  now_eq := congrArg (· + d) h.now_eq
  live?_eq later hlater := h.live?_eq later (Nat.le_of_add_right_le hlater)
  asked_eq := h.asked_eq
  client_eq := h.client_eq

/-- What happens aside does not change the look, unless the counter is deleted. -/
theorem aside (h : LooksLike site l ip m t) {client : String} {w : World MemoryStore}
    (hstep : Aside.Step (site.scope client) m.world w) (hother : ¬ site.IsCacheKey (l.key ip))
    (hkept : ¬ w.journal.Purges (l.key ip)) : LooksLike site l ip ⟨w, m.asked⟩ t := by
  obtain ⟨hnow, notes, hnotes, hlive⟩ := hstep.live?_eq
  rw [hnotes, Journal.purges_append, not_or] at hkept
  refine ⟨h.isolated, h.now_eq.trans hnow.symm, fun later hlater ↦ ?_, h.asked_eq, h.client_eq⟩
  have hlater' : m.world.now ≤ later := hnow ▸ hlater
  rw [hlive _ hother hkept.2 later hlater', h.live?_eq later hlater']

/-- A request of somebody else is counted elsewhere. -/
theorem count_other (h : LooksLike site l ip m t) (hlimiter : site.limiter = some l)
    {req : Request} (hother : req.clientIp site.trust ≠ ip) (admitted : Bool) :
    LooksLike site l ip ⟨site.countedIn (req.clientIp site.trust) m.world,
      m.asked ++ [⟨req, m.world.now, admitted⟩]⟩ t := by
  rw [countedIn_eq hlimiter]
  refine ⟨h.isolated, h.now_eq, fun later hlater ↦ ?_, ?_, h.client_eq⟩
  · refine (MemoryStore.live?_increment _ _ hlater).trans ?_
    rw [if_neg fun hkey ↦ hother (Limiter.key_inj.mp hkey).symm]
    exact h.live?_eq later hlater
  · rw [askedAs, List.filter_append, List.filter_cons_of_neg (by simpa using hother),
      List.filter_nil, List.append_nil]
    exact h.asked_eq

/-- A request of the client is a check of the limiter. -/
theorem count_self (h : LooksLike site l ip m t) (hlimiter : site.limiter = some l)
    {req : Request} (hself : req.clientIp site.trust = ip) :
    LooksLike site l ip ⟨site.countedIn ip m.world,
        m.asked ++ [⟨req, m.world.now, site.letsIn ip m.world⟩]⟩
      (t.after l [.count ip, .conclude t.counts.length]) := by
  have hisolated : (t.after l [.count ip, .conclude t.counts.length]).Isolated l :=
    (h.isolated.count ip).conclude _
  have hlive := h.live?_eq m.world.now (Nat.le_refl _)
  have hcount : (m.world.store.increment m.world.now (l.key ip) l.window l.policy).1
      = (t.world.store.increment t.world.now (l.key ip) l.window l.policy).1 := by
    rw [MemoryStore.increment_fst, MemoryStore.increment_fst, h.now_eq, hlive]
  rw [countedIn_eq hlimiter, letsIn_eq hlimiter, hcount]
  rw [h.isolated.after_check] at hisolated ⊢
  refine ⟨hisolated, h.now_eq, fun later hlater ↦ ?_, ?_, ?_⟩
  · refine (MemoryStore.live?_increment _ _ hlater).trans (Eq.trans ?_
      (MemoryStore.live?_increment _ _ (h.now_eq ▸ hlater)).symm)
    rw [if_pos rfl, if_pos rfl, h.now_eq, ← hlive]
  · rw [askedAs, List.filter_append, List.filter_cons_of_pos (by simpa using hself),
      List.filter_nil, List.map_append, List.zipIdx_append, List.map_append]
    refine congrArg₂ (· ++ ·) (h.asked_eq.trans (List.map_congr_left fun c hc ↦ ?_)) ?_
    -- the verdicts on earlier checks stay
    · have hplace : c.2 < t.counts.length := List.snd_lt_of_mem_zipIdx hc
      rw [Table.find?_insert, if_neg (Nat.ne_of_lt hplace)]
    · simp only [List.map_cons, List.map_nil, List.zipIdx_cons, List.zipIdx_nil, Nat.zero_add,
        Table.find?_insert, if_true, Option.any_some, h.now_eq]
      rfl
  · intro c hc
    rcases List.mem_append.mp hc with hc | hc
    · exact h.client_eq c hc
    · rw [List.mem_singleton.mp hc]

theorem step (h : LooksLike site l ip m t) (hlimiter : site.limiter = some l)
    (hother : ¬ site.IsCacheKey (l.key ip)) (hstep : Step site m m')
    (hkept : ¬ m'.world.journal.Purges (l.key ip)) : ∃ t', LooksLike site l ip m' t' := by
  cases hstep with
  | wait d => exact ⟨_, h.wait d⟩
  | count req =>
    by_cases hip : req.clientIp site.trust = ip
    · rw [hip]
      exact ⟨_, h.count_self hlimiter hip⟩
    · exact ⟨t, h.count_other hlimiter hip _⟩
  | aside client haside => exact ⟨t, h.aside haside hother hkept⟩

end LooksLike

/-- **A client of a site sees a limiter**, whatever the others do and however requests overlap, as
long as its counter is not deleted. -/
theorem Leads.exists_looksLike {now : Instant} (h : Leads site (.start (.new now) now) m)
    (hlimiter : site.limiter = some l) (hother : ¬ site.IsCacheKey (l.key ip))
    (hkept : ¬ m.world.journal.Purges (l.key ip)) : ∃ t, LooksLike site l ip m t := by
  induction h with
  | refl => exact ⟨_, .start site l ip now⟩
  | tail _ hstep ih =>
    obtain ⟨notes, hnotes, -⟩ := hstep.exists_notes
    obtain ⟨t, ht⟩ := ih fun hpurges ↦ hkept (by
      rw [hnotes, Journal.purges_append]
      exact .inl hpurges)
    exact ht.step hlimiter hother hstep hkept

/-! ## Bounds -/

namespace LooksLike

theorem length_filter_eq (h : LooksLike site l ip m t) (p : Instant × Bool → Bool) :
    ((m.askedAs site ip).filter fun a ↦ p (a.time, a.admitted)).length =
      (t.counts.zipIdx.filter fun c ↦
        p (c.1.time, (t.verdicts.find? c.2).any Decision.admitted)).length := by
  have hlength := congrArg (fun xs ↦ (xs.filter p).length) h.asked_eq
  simp only [List.filter_map, List.length_map] at hlength
  exact hlength

/-- Requests in an interval that were let through are checks that were admitted. -/
theorem length_admitted_eq (h : LooksLike site l ip m t) (a b : Instant) :
    ((m.askedAs site ip).filter fun x ↦ x.admitted ∧ a ≤ x.time ∧ x.time < b).length =
      (t.admitted.filter fun c ↦ c.client = ip ∧ a ≤ c.time ∧ c.time < b).length := by
  refine (h.length_filter_eq fun x ↦ x.2 ∧ a ≤ x.1 ∧ x.1 < b).trans ?_
  rw [Traffic.admitted, List.filter_map, List.length_map, List.filter_filter]
  congr 1
  refine List.filter_congr fun c hc ↦ ?_
  have hclient := h.client_eq c.1 (List.fst_mem_of_mem_zipIdx hc)
  rw [Bool.eq_iff_iff]
  simp [hclient, and_comm, and_assoc]

/-- Under the fixed policy, no more requests of a client are let through in one of its windows than
the limit says. -/
theorem length_window_le (h : LooksLike site l ip m t) (hfixed : l.policy = .fixed)
    {g : List Asked} (hg : g ∈ windows Asked.time l.window (m.askedAs site ip)) :
    (g.filter Asked.admitted).length ≤ l.limit := by
  let seen : Asked → Instant × Bool := fun a ↦ (a.time, a.admitted)
  let told : Traffic.Count × Nat → Instant × Bool := fun c ↦
    (c.1.time, (t.verdicts.find? c.2).any Decision.admitted)
  have hchecks : t.checks ip = t.counts.zipIdx := by
    refine List.filter_eq_self.mpr fun c hc ↦ ?_
    simpa using h.client_eq c.1 (List.fst_mem_of_mem_zipIdx hc)
  have hwindows : (windows Asked.time l.window (m.askedAs site ip)).map (List.map seen)
      = (t.windows l ip).map (List.map told) := by
    have hasked : windows Prod.fst l.window ((m.askedAs site ip).map seen)
        = windows Prod.fst l.window ((t.checks ip).map told) := by
      rw [hchecks]
      exact congrArg _ h.asked_eq
    rwa [windows_map, windows_map] at hasked
  obtain ⟨g', hg', heq⟩ := List.mem_map.mp (hwindows ▸ List.mem_map_of_mem hg)
  have hlength := congrArg (fun xs ↦ (xs.filter Prod.snd).length) heq
  simp only [List.filter_map, List.length_map] at hlength
  exact Nat.le_trans (Nat.le_of_eq hlength.symm) (h.isolated.length_filter_window_le hfixed hg')

end LooksLike

/-- The requests of a peer that were let through between two instants. -/
def admittedOf (peer : Option Net.Address) (a b : Instant) (m : Moment σ) : List Asked :=
  m.asked.filter fun x ↦ x.request.peer = peer ∧ x.admitted ∧ a ≤ x.time ∧ x.time < b

/-- The requests of a peer that is taken to be one client are among those of the client. -/
theorem length_admittedOf_le {σ : Type} {m : Moment σ} {peer : Option Net.Address}
    (hpeer : ∀ req : Request, req.peer = peer → req.clientIp site.trust = ip) (a b : Instant) :
    (m.admittedOf peer a b).length ≤
      ((m.askedAs site ip).filter fun x ↦ x.admitted ∧ a ≤ x.time ∧ x.time < b).length := by
  rw [askedAs, List.filter_filter]
  refine (List.monotone_filter_right _ fun x hx ↦ ?_).length_le
  obtain ⟨hx, hin⟩ := of_decide_eq_true hx
  simp [hpeer x.request hx, hin]

end Site.Moment

/-! ## Confinement -/

namespace Site

variable {s : Settings} {started : Instant} {site : Site}

/-- A site that limits requests keeps the counter of a peer where no response is, so a peer sees a
limiter. -/
theorem exists_looksLike_of_start (hstart : start s started = .ok site)
    (hlimited : s.isLimited = true) {now : Instant} {m : Moment MemoryStore}
    (hleads : Moment.Leads site (.start (.new now) now) m) (peer : Option Net.Address)
    (hkept : ¬ m.world.journal.Purges (s.counterPrefix ++ peerText peer)) :
    ∃ l t, l.limit = s.limit ∧ l.window = s.window ∧ l.policy = s.policy ∧
      Moment.LooksLike site l (peerText peer) m t := by
  obtain ⟨l, hl, hlimit, hwindow, hprefix, hpolicy⟩ := (limiter_of_start hstart).2 hlimited
  have hother : ¬ site.IsCacheKey (l.key (peerText peer)) := by
    rintro ⟨req, heq⟩
    exact Cache.key_ne_append_peerText _ _ _ _ _ _ _ heq.symm
  rw [← hprefix] at hkept
  obtain ⟨t, ht⟩ := hleads.exists_looksLike hl hother hkept
  exact ⟨l, t, hlimit, hwindow, hpolicy, ht⟩

/-- What a site promises about a peer whose word about its client it does not take. -/
structure Confines (site : Site) (s : Settings) (around : Surroundings)
    (peer : Option Net.Address) : Prop where
  /-- With a store of any kind, a request of the peer is counted once, under the address of the
  peer, and shows no other client. -/
  request : ∀ {σ : Type} [CounterStore σ] [CacheStore σ] (v : Serving σ) (req : Request),
    req.peer = peer → ∃ notes : Journal,
      (v.step site around (.request req)).world.journal = v.world.journal ++ notes ∧
      notes.counted = (if s.isLimited then [s.counterPrefix ++ peerText peer] else []) ∧
      notes.Shows (peerText peer)
  /-- It is let through exactly if the answer is a count within the limit. -/
  admits : s.isLimited = true → ∀ {σ : Type} [CounterStore σ] [CacheStore σ] (w : World σ)
    (req : Request), req.peer = peer → (site.admits around req w = true ↔ ∃ n ≤ s.limit,
      (CounterStore.increment w.now (s.counterPrefix ++ peerText peer) s.window s.policy w.store).1
        = .ok n)
  /-- Whatever else happens counts nobody and shows nobody. -/
  other : ∀ {σ : Type} [CounterStore σ] [CacheStore σ] (v : Serving σ) (st : Serving.Step),
    (∀ req, st ≠ .request req) → ∃ notes : Journal,
      (v.step site around st).world.journal = v.world.journal ++ notes ∧ notes.counted = [] ∧
      ∀ client, notes.Shows client
  /-- A site that answers one request at a time goes from moment to moment. -/
  leads : ∀ {σ : Type} [CounterStore σ] [CacheStore σ] (store : σ) now steps,
    Moment.Leads site (.start store now) (Serving.run site around store now steps).toMoment
  /-- The keys that are ever deleted are those that match the pattern of the purge. -/
  deleted : ∀ {σ : Type} [CounterStore σ] [CacheStore σ] (store : σ) now m,
    Moment.Leads site (.start store now) m →
    ∀ pattern ∈ m.world.journal.deleted, pattern = s.purgePattern
  /-- Under the rolling policy, however requests overlap, no more of its requests than the limit
  says are let through in an interval of the length of a window, as long as its counter is not
  deleted. -/
  rolling : s.isLimited = true → s.policy = .rolling → ∀ now (m : Moment MemoryStore),
    Moment.Leads site (.start (.new now) now) m →
    ¬ m.world.journal.Purges (s.counterPrefix ++ peerText peer) →
    ∀ a, (m.admittedOf peer a (a + s.window)).length ≤ s.limit
  /-- Under the fixed policy the same holds of the windows of its counter, and of an interval up to
  twice the limit. -/
  fixed : s.isLimited = true → s.policy = .fixed → ∀ now (m : Moment MemoryStore),
    Moment.Leads site (.start (.new now) now) m →
    ¬ m.world.journal.Purges (s.counterPrefix ++ peerText peer) →
    (∀ g ∈ windows Asked.time s.window (m.askedAs site (peerText peer)),
      (g.filter fun x ↦ x.request.peer = peer ∧ x.admitted).length ≤ s.limit) ∧
    ∀ a, (m.admittedOf peer a (a + s.window)).length ≤ 2 * s.limit

/-- **A peer that is not trusted cannot choose its counter.** -/
theorem confines {s : Settings} {started : Instant} {site : Site}
    (hstart : start s started = .ok site) (around : Surroundings) (peer : Option Net.Address)
    (hnetworks : s.trustedProxies.filterMap Net.Network.parse? ≠ [])
    (houtside : ∀ a ∈ peer, ∀ n ∈ s.trustedProxies.filterMap Net.Network.parse?,
      n.contains a = false) :
    site.Confines s around peer := by
  have hsettings := settings_of_start hstart
  obtain ⟨hunlimited, hlimiter⟩ := limiter_of_start hstart
  have htrust : site.trust.trusts peer = false := by
    rw [trust, hsettings]
    exact Net.Trust.trusts_eq_false hnetworks houtside
  have hpeer : ∀ req : Request, req.peer = peer → req.clientIp site.trust = peerText peer := by
    rintro req rfl
    exact Request.clientIp_eq_peerText htrust
  constructor
  case request =>
    intro σ _ _ v req hreq
    obtain ⟨notes, hnotes, hcounted, hshows, -⟩ := v.exists_notes_request site around req
    rw [hpeer req hreq] at hcounted hshows
    refine ⟨notes, hnotes, hcounted.trans ?_, hshows⟩
    cases hlimited : s.isLimited with
    | false =>
      rw [hunlimited hlimited]
      rfl
    | true =>
      obtain ⟨l, hl, -, -, hprefix, -⟩ := hlimiter hlimited
      rw [hl, ← hprefix]
      rfl
  case admits =>
    intro hlimited σ _ _ w req hreq
    obtain ⟨l, hl, hlimit, hwindow, hprefix, hpolicy⟩ := hlimiter hlimited
    rw [admits_eq, hpeer req hreq, letsIn_iff hl, hlimit, ← hwindow, ← hprefix, ← hpolicy]
    rfl
  case other =>
    intro σ _ _ v st hst
    obtain ⟨notes, hnotes, hcounted, hshows, -⟩ := v.exists_notes_other site around hst
    exact ⟨notes, hnotes, hcounted, hshows⟩
  case leads => exact fun store now steps ↦ Serving.leads_run site around store now steps
  case deleted =>
    intro σ _ _ store now m hleads
    rw [← hsettings]
    exact hleads.eq_of_mem_deleted
  case rolling =>
    intro hlimited hrolling now m hleads hkept a
    obtain ⟨l, t, hlimit, hwindow, hpolicy, ht⟩ :=
      exists_looksLike_of_start hstart hlimited hleads peer hkept
    have hbound := ht.isolated.length_admitted_le (hpolicy.trans hrolling) (peerText peer) a
    rw [← hlimit, ← hwindow]
    exact (Moment.length_admittedOf_le hpeer _ _).trans
      ((ht.length_admitted_eq _ _).trans_le hbound)
  case fixed =>
    intro hlimited hfixed now m hleads hkept
    obtain ⟨l, t, hlimit, hwindow, hpolicy, ht⟩ :=
      exists_looksLike_of_start hstart hlimited hleads peer hkept
    rw [← hlimit, ← hwindow]
    constructor
    · intro g hg
      refine Nat.le_trans (List.monotone_filter_right _ fun x hx ↦ ?_).length_le
        (ht.length_window_le (hpolicy.trans hfixed) hg)
      exact (of_decide_eq_true hx).2
    · intro a
      have hbound :=
        ht.isolated.length_admitted_le_two_mul (hpolicy.trans hfixed) (peerText peer) a
      exact (Moment.length_admittedOf_le hpeer _ _).trans
        ((ht.length_admitted_eq _ _).trans_le hbound)

/-- A peer that claims to be somebody else each time is one client: its second request is turned
away. -/
theorem confines_twoClaims :
    let s : Settings := { Settings.default with limit := 1, trustedProxies := ["10.0.0.0/8"] }
    let site : Site :=
      ⟨s, 0, some ⟨1, Duration.ofSecs 60, "rate_limit:", .rolling, Nat.one_pos, by decide⟩⟩
    let peer : Option Net.Address := some (.v4 0x01020304)
    let around : Surroundings := ⟨fun _ _ ↦ .error .expired, fun id ↦ .error (.notFound id), id⟩
    let ask (claim : String) : Request :=
      ⟨.get, ⟨"/health", none⟩, [("x-forwarded-for", utf8 claim)], peer, none, none, none⟩
    start s 0 = .ok site ∧ site.Confines s around peer ∧
      (Serving.run site around (MemoryStore.new 0) 0
        [.request (ask "9.9.9.9"), .request (ask "8.8.8.8")]).asked.map Asked.admitted
          = [true, false] := by
  intro s site peer around ask
  have hstart : start s 0 = .ok site := rfl
  exact ⟨hstart, confines hstart around peer (by decide +kernel) (by decide +kernel),
    by decide +kernel⟩

/-- The keys of the cache may be set to begin as the counters do, and then a purge of the cache
deletes the counters as well. The purge is the first request of its peer, and the next request is
the first one again. -/
theorem purge_admitsAgain :
    let s : Settings :=
      { Settings.default with limit := 1, trustedProxies := ["10.0.0.0/8"], cacheSpace := "rate" }
    let site : Site :=
      ⟨s, 0, some ⟨1, Duration.ofSecs 60, "rate_limit:", .rolling, Nat.one_pos, by decide⟩⟩
    let peer : Option Net.Address := some (.v4 0x01020304)
    let around : Surroundings :=
      ⟨fun _ _ ↦ .ok ⟨"root", 1, 0⟩, fun id ↦ .ok ⟨id, "root@example.com", "Root", "admin"⟩, id⟩
    let purge : Request := ⟨.post, ⟨"/admin/cache/purge", none⟩,
      [("cookie", utf8 "auth_token=token")], peer, none, none, none⟩
    let ask : Request := ⟨.get, ⟨"/health", none⟩, [], peer, none, none, none⟩
    let served : Serving MemoryStore :=
      Serving.run site around (.new 0) 0 [.request purge, .request ask]
    start s 0 = .ok site ∧ s.trustedProxies.filterMap Net.Network.parse? ≠ [] ∧
      (∀ a ∈ peer, ∀ n ∈ s.trustedProxies.filterMap Net.Network.parse?, n.contains a = false) ∧
      s.limit < (served.admittedOf peer 0 (0 + s.window)).length :=
  ⟨rfl, by decide +kernel, by decide +kernel, by decide +kernel⟩

end Site

end Gatehouse
