import Gatehouse.Proofs.Site.Accounts
import Gatehouse.Proofs.Site.Reachable

/-!
# Every response is marked

A response may come from a handler, from the cache, from a gate, from the limiter, or from a site
that knows no route for the request. Whoever gives it, it leaves with one id, the one under which
the log and everything behind the marks know the request; with one value for each of the fields
that tell browsers to be careful; and with what the limiter says, if it says anything, and nothing
else that a limiter could say: **`Site.Serving.marks_step`**.

The marks are put on last, in place of whatever was there, so of the id and the security fields
nothing need be known of the response inside. Of the limiter's fields it must be known that the
response inside has none. A response that is replayed has none because nothing that is stored in a
reachable state has, `Reachable.isPlain`; this is all that reachability is needed for. For the same
reason a rejection is counted in these states exactly if the status is that of a request beyond the
limit: `Site.Serving.exists_rejections_request`.
-/

namespace Gatehouse

/-! ## Fields of marked responses -/

namespace Headers

theorem values_insertText (h : Headers) (name other text : String) :
    (h.insertText name text).values other = if other = name then [utf8 text] else h.values other :=
  h.values_insert name other (utf8 text)

theorem values_insertMissing_of_ne (h : Headers) {name other : String} (hne : other ≠ name)
    (value : Bytes) : (h.insertMissing name value).values other = h.values other := by
  rw [insertMissing]
  split_ifs
  · rfl
  · rw [values_insert, if_neg hne]

/-- Fields with one text for each of some names. -/
def withTexts (h : Headers) (fields : List (String × String)) : Headers :=
  fields.foldl (fun h f ↦ h.insertText f.1 f.2) h

theorem values_withTexts_of_not_mem {fields : List (String × String)} {name : String}
    (hname : name ∉ fields.map Prod.fst) (h : Headers) :
    (h.withTexts fields).values name = h.values name := by
  induction fields generalizing h with
  | nil => rfl
  | cons f fields ih =>
    rw [List.map_cons, List.mem_cons, not_or] at hname
    rw [withTexts, List.foldl_cons]
    refine (ih hname.2 _).trans ?_
    rw [values_insertText, if_neg hname.1]

theorem values_withTexts_of_mem {fields : List (String × String)}
    (hnodup : (fields.map Prod.fst).Nodup) {f : String × String} (hf : f ∈ fields) (h : Headers) :
    (h.withTexts fields).values f.1 = [utf8 f.2] := by
  induction fields generalizing h with
  | nil => cases hf
  | cons g fields ih =>
    rw [List.map_cons, List.nodup_cons] at hnodup
    rw [withTexts, List.foldl_cons]
    rcases List.mem_cons.mp hf with rfl | hf
    · refine (values_withTexts_of_not_mem hnodup.1 _).trans ?_
      rw [values_insertText, if_pos rfl]
    · exact ih hnodup.2 hf _

end Headers

namespace Site

theorem values_marked_of_mem (id : String) (r : Response) {f : String × String}
    (hf : f ∈ securityFields) : (marked id r).headers.values f.1 = [utf8 f.2] := by
  have hne : f.1 ≠ requestIdField := (by decide : ∀ f ∈ securityFields, f.1 ≠ requestIdField) f hf
  rw [marked, Response.withText, Headers.values_insertText, if_neg hne]
  exact Headers.values_withTexts_of_mem (by decide) hf r.headers

theorem values_marked_id (id : String) (r : Response) :
    (marked id r).headers.values requestIdField = [utf8 id] := by
  rw [marked, Response.withText, Headers.values_insertText, if_pos rfl]

/-- The names of the fields that the marks put on a response. -/
def markNames : List String := requestIdField :: securityFields.map Prod.fst

theorem values_marked_of_not_mem {name : String} (hname : name ∉ markNames) (id : String)
    (r : Response) : (marked id r).headers.values name = r.headers.values name := by
  rw [markNames, List.mem_cons, not_or] at hname
  rw [marked, Response.withText, Headers.values_insertText, if_neg hname.1]
  exact Headers.values_withTexts_of_not_mem hname.2 r.headers

/-- The names of the fields that may be put on when a response is finished. -/
def finishNames : List String := ["allow", "content-length"]

theorem values_finished {name : String} (hname : name ∉ finishNames) (method : Http.Method)
    (allowed : Option String) (r : Response) :
    (finished method allowed r).headers.values name = r.headers.values name := by
  have hallow : name ≠ "allow" := fun h ↦ hname (h ▸ by decide)
  have hlength : name ≠ "content-length" := fun h ↦ hname (h ▸ by decide)
  simp only [finished]
  cases allowed <;> cases r.body.hint.exact? <;>
    simp only [Headers.values_insertMissing_of_ne _ hallow,
      Headers.values_insertMissing_of_ne _ hlength]

theorem values_dressed {name : String} (hname : name ∉ finishNames) (req : Request) (id : String)
    (r : Response) :
    (dressed req id r).headers.values name = (marked id r).headers.values name := by
  rw [dressed]
  split
  · exact values_finished hname _ _ _
  · split
    · rfl
    · exact values_finished hname _ _ _

/-- The limiter's fields leave as they are. -/
theorem values_dressed_of_mem {name : String} (hname : name ∈ limiterFields) (req : Request)
    (id : String) (r : Response) :
    (dressed req id r).headers.values name = r.headers.values name := by
  obtain ⟨hfinish, hmark⟩ :=
    (by decide : ∀ name ∈ limiterFields, name ∉ finishNames ∧ name ∉ markNames) name hname
  rw [values_dressed hfinish, values_marked_of_not_mem hmark]

/-! ## What the limiter says -/

section

variable {σ : Type} [CounterStore σ] {site : Site} {around : Surroundings} {route : Option Route}
  {req : Request} {w : World σ}

/-- The names under which a limiter reports how a client stands. -/
def reportNames : List String := ["x-ratelimit-limit", "x-ratelimit-remaining", "x-ratelimit-reset"]

/-- What is to be said of the limiter's fields of a response to a client whose request is counted in
a state. -/
structure Speaks (site : Site) (client : String) (w : World σ) (r : Response) : Prop where
  /-- Without a limiter nothing is reported. -/
  unlimited : site.limiter = none → ∀ name ∈ reportNames, r.headers.values name = []
  /-- A limiter that could not count reports nothing. -/
  uncounted : ∀ l ∈ site.limiter, ∀ e, (l.count client w).1 = .error e →
    ∀ name ∈ reportNames, r.headers.values name = []
  /-- A limiter that has counted reports, once, how its client stands now. -/
  counted : ∀ l ∈ site.limiter, ∀ n, (l.count client w).1 = .ok n →
    r.headers.Reports l.limit (l.limit - n)
      (Limiter.endOf w.now (l.timeLeft (Run.ttl (l.key client) (l.count client w).2).1))
  /-- A client is told to wait if its request is beyond the limit, and otherwise not. -/
  retryAfter : if r.status = .tooManyRequests then
      ∃ wait : Int, 1 ≤ wait ∧ r.headers.values "retry-after" = [utf8 wait.repr]
    else r.headers.values "retry-after" = []

/-- Only the limiter's fields and the status matter. -/
theorem Speaks.congr {client : String} {r r' : Response} (h : site.Speaks client w r)
    (hstatus : r'.status = r.status)
    (hvalues : ∀ name ∈ limiterFields, r'.headers.values name = r.headers.values name) :
    site.Speaks client w r' := by
  have hreport : ∀ name ∈ reportNames, r'.headers.values name = r.headers.values name :=
    fun name hname ↦ hvalues name ((by decide : ∀ name ∈ reportNames, name ∈ limiterFields) _ hname)
  constructor
  case unlimited =>
    intro hnone name hname
    rw [hreport name hname, h.unlimited hnone name hname]
  case uncounted =>
    intro l hl e he name hname
    rw [hreport name hname, h.uncounted l hl e he name hname]
  case counted =>
    intro l hl n hn
    obtain ⟨hlimit, hremaining, hreset⟩ := h.counted l hl n hn
    exact ⟨by rw [hreport _ (by decide), hlimit], by rw [hreport _ (by decide), hremaining],
      by rw [hreport _ (by decide), hreset]⟩
  case retryAfter =>
    rw [hstatus, hvalues _ (by decide)]
    exact h.retryAfter

/-- Where nothing is counted, a plain response is as it should be. -/
theorem speaks_of_isPlain {client : String} {r : Response} (hplain : r.IsPlain)
    (hcount : ∀ l ∈ site.limiter, ∀ n, (l.count client w).1 ≠ .ok n) :
    site.Speaks client w r := by
  have hreport : ∀ name ∈ reportNames, r.headers.values name = [] := fun name hname ↦
    hplain.values_eq name ((by decide : ∀ name ∈ reportNames, name ∈ limiterFields) name hname)
  refine ⟨fun _ ↦ hreport, fun _ _ _ _ ↦ hreport, fun l hl n hn ↦ absurd hn (hcount l hl n), ?_⟩
  rw [if_neg hplain.status_ne]
  exact hplain.values_eq _ (by decide)

/-- Where the request is counted, the decision on it is reported. -/
theorem speaks_of_reports {l : Limiter} {n : Nat} {left : Except StoreError (Option Duration)}
    {w' w'' : World σ} {client : String} {r : Response} (hlimiter : site.limiter = some l)
    (hcount : l.count client w = (.ok n, w')) (hleft : Run.ttl (l.key client) w' = (left, w''))
    (hreports : r.headers.Reports l.limit (l.limit - n) (l.decide w.now n left).resetAt)
    (hwait : if r.status = .tooManyRequests then
        ∃ wait : Int, 1 ≤ wait ∧ r.headers.values "retry-after" = [utf8 wait.repr]
      else r.headers.values "retry-after" = []) : site.Speaks client w r := by
  constructor
  case unlimited =>
    intro hnone
    cases hlimiter.symm.trans hnone
  case uncounted =>
    intro l' hl e he
    cases hlimiter.symm.trans hl
    rw [hcount] at he
    cases he
  case counted =>
    intro l' hl n' hn
    cases hlimiter.symm.trans hl
    rw [hcount] at hn ⊢
    cases hn
    rw [hleft, ← l.resetAt_decide w.now n left]
    exact hreports
  case retryAfter => exact hwait

variable [CacheStore σ] [TruthfulStore σ]

/-- Counting a client, and asking for the time that is left, keeps what is stored plain. -/
theorem octets_subset_of_count {l : Limiter} {client : String} {w' w'' : World σ}
    {answer : Except StoreError Nat} {left : Except StoreError (Option Duration)}
    (hw : TruthfulStore.octets w.store ⊆ Cache.plainOctets)
    (hcount : l.count client w = (answer, w')) (hleft : Run.ttl (l.key client) w' = (left, w'')) :
    TruthfulStore.octets w''.store ⊆ Cache.plainOctets := by
  cases hcount
  cases hleft
  exact (Run.keeps_ttl _ _
    (Run.keeps_increment Cache.numerals_subset_plainOctets _ l.window l.policy w hw).1).1

/-- **The limiter has the only word**: in a state in which everything stored is plain, nothing else
speaks for it. -/
theorem Limits.speaks {answer : Response × World σ} (h : Limits site around route req w answer)
    (hw : TruthfulStore.octets w.store ⊆ Cache.plainOctets) :
    site.Speaks (Context.of req).clientIp w answer.1 := by
  cases h with
  | unlimited hlimiter =>
    refine speaks_of_isPlain (site.keeps_shared around route req w hw).2.toIsPlain fun l hl ↦ ?_
    cases hlimiter.symm.trans hl
  | uncounted hlimiter hcount =>
    refine speaks_of_isPlain (Response.isPlain_ofJson (of_decide_eq_true rfl) _) fun l hl n hn ↦ ?_
    cases hlimiter.symm.trans hl
    rw [hcount] at hn
    cases hn
  | @beyond l n left w' w'' hlimiter hcount hleft hlt =>
    refine speaks_of_reports hlimiter hcount hleft (Service.reports_overLimit _ _ _) ?_
    dsimp only
    have hstatus : (Service.overLimit (l.decide w.now n left) w.now
        (.ofFailure .rateLimited)).status = .tooManyRequests := rfl
    rw [if_pos hstatus]
    refine ⟨_, Decision.one_le_retryAfter (l.decide w.now n left) w.now.unixSecs, ?_⟩
    rw [Service.values_overLimit, if_pos rfl]
  | @within l n left w' w'' hlimiter hcount hleft hle =>
    refine speaks_of_reports hlimiter hcount hleft (Decision.reports_report _ _) ?_
    have hplain := (site.keeps_shared around route req w''
      (octets_subset_of_count hw hcount hleft)).2.toIsPlain
    rw [if_neg hplain.status_ne, Decision.values_report_of_isUnreported _ _
      ⟨by decide, by decide, by decide⟩]
    exact hplain.values_eq _ (by decide)

/-- In such a state a request that is let in is not told that there were too many. -/
theorem Limits.letsIn_eq_false {answer : Response × World σ}
    (h : Limits site around route req w answer)
    (hw : TruthfulStore.octets w.store ⊆ Cache.plainOctets)
    (hstatus : answer.1.status = .tooManyRequests) :
    site.letsIn (Context.of req).clientIp w = false := by
  cases h with
  | unlimited hlimiter =>
    exact absurd hstatus (site.keeps_shared around route req w hw).2.status_ne
  | uncounted hlimiter hcount => exact absurd hstatus (of_decide_eq_true rfl)
  | beyond hlimiter hcount hleft hlt =>
    exact letsIn_eq_false_of_lt hlimiter (congrArg Prod.fst hcount) hlt
  | within hlimiter hcount hleft hle =>
    exact absurd hstatus (site.keeps_shared around route req _
      (octets_subset_of_count hw hcount hleft)).2.status_ne

end

/-! ## What the log says -/

/-- The id of a request stands in no records but those that belong to an account. -/
theorem isAccount_of_id_mem {e : Event} {v : FieldValue} (hv : ("request_id", v) ∈ e.fields) :
    (Note.event e).isAccount = true := by
  cases e <;> first | rfl | simp [Event.fields] at hv

theorem mem_account_of_id_mem {notes : Journal} {e : Event} {v : FieldValue}
    (he : e ∈ notes.events) (hv : ("request_id", v) ∈ e.fields) : .event e ∈ notes.account := by
  obtain ⟨n, hn, hevent⟩ := List.mem_filterMap.mp he
  obtain rfl : n = .event e := by
    cases n <;> cases hevent
    rfl
  exact List.mem_filter.mpr ⟨hn, isAccount_of_id_mem hv⟩

section

variable {σ : Type} [CounterStore σ] {site : Site} {around : Surroundings} {route : Option Route}
  {req : Request} {w : World σ} {v : FieldValue}

/-- An event is one of the records of a request. -/
def IsRecord (who : Context) (e : Event) : Prop :=
  (∃ method path status elapsed, e = .completed method path status elapsed who) ∨
    ∃ operation f, e = .rejected operation f who

theorem IsRecord.eq_of_id_mem {who : Context} {e : Event} (h : IsRecord who e)
    (hv : ("request_id", v) ∈ e.fields) : v = .text who.requestId := by
  rcases h with ⟨method, path, status, elapsed, rfl⟩ | ⟨operation, f, rfl⟩ <;>
    simpa [Event.fields] using hv

/-- The account of a request has no records of others. -/
theorem Tally.isRecord {r : Response} {account : Journal}
    (h : Tally site around route req w r account) {e : Event} (he : .event e ∈ account) :
    IsRecord (Context.of req) e := by
  cases h with
  | uncounted | beyond =>
    simp only [List.mem_cons, reduceCtorEq, Note.event.injEq, List.not_mem_nil, or_false,
      false_or] at he
    exact .inr ⟨_, _, he⟩
  | letIn hlets hcourse =>
    cases hcourse with
    | refused => exact .inr ⟨_, _, Note.event.inj (List.mem_singleton.mp he)⟩
    | looked => cases List.mem_singleton.mp he
    | handled => cases he

theorem isRecord_of_mem_record {filter : LogFilter} {status : Http.Status} {elapsed : Duration}
    {e : Event} (he : .event e ∈ filter.record req status elapsed) :
    IsRecord (Context.of req) e := by
  rw [LogFilter.record] at he
  rcases List.mem_cons.mp he with heq | he
  · cases heq
  · split_ifs at he
    · exact .inl ⟨_, _, _, _, Note.event.inj (List.mem_singleton.mp he)⟩
    · cases he

/-- The only id in what is noted of a request is its own. -/
theorem Tally.eq_of_id_mem {r : Response} {account notes : Journal} {elapsed : Duration}
    (h : Tally site around route req w r account)
    (haccount : notes.account = account ++ site.filter.record req r.status elapsed) {e : Event}
    (he : e ∈ notes.events) (hv : ("request_id", v) ∈ e.fields) :
    v = .text (Context.of req).requestId := by
  have hmem := mem_account_of_id_mem he hv
  rw [haccount] at hmem
  rcases List.mem_append.mp hmem with hmem | hmem
  · exact (h.isRecord hmem).eq_of_id_mem hv
  · exact (isRecord_of_mem_record hmem).eq_of_id_mem hv

end

/-! ## Marks -/

section

variable {σ : Type} [CounterStore σ] [CacheStore σ]

/-- What is to be said of the answer of a site with some settings to a request, and of all that is
noted on the way to it. -/
structure Marks (s : Settings) (site : Site) (around : Surroundings) (req : Request) (w : World σ)
    (notes : Journal) : Prop where
  /-- The response has one id. -/
  id_eq : (site.answer around req w).1.headers.values "x-request-id" = [utf8 (idIn around w)]
  /-- Everything behind the marks is asked about the request with the same id in its context, and
  the response is the one that it gives, dressed. -/
  context : (site.known around req w).context.map Context.requestId = some (idIn around w) ∧
    ∃ record : Journal,
      let inner := site.guarded around (Route.ofPath? req.target.path) (site.known around req w)
        (identifiedIn around w)
      site.answer around req w = (dressed req (idIn around w) inner.1, inner.2.noted record)
  /-- Every record with an id has this one. -/
  logged : ∀ e ∈ notes.events, ∀ v, ("request_id", v) ∈ e.fields → v = .text (idIn around w)
  /-- Each security field has its one value. -/
  security : ∀ f ∈ securityFields, (site.answer around req w).1.headers.values f.1 = [utf8 f.2]
  /-- There is a limiter, with the limit that is set, if requests are limited. -/
  limiter_isSome : site.limiter.isSome = s.isLimited
  limit_eq : ∀ l ∈ site.limiter, l.limit = s.limit
  /-- The limiter, and nobody else, says what it has to say. -/
  speaks : site.Speaks (req.clientIp site.trust) (identifiedIn around w)
    (site.answer around req w).1

theorem isSome_limiter_of_start {s : Settings} {started : Instant} {site : Site}
    (hstart : Site.start s started = .ok site) : site.limiter.isSome = s.isLimited := by
  obtain ⟨hnone, hsome⟩ := limiter_of_start hstart
  cases hlimited : s.isLimited with
  | false =>
    rw [hnone hlimited]
    rfl
  | true =>
    obtain ⟨l, hl, -⟩ := hsome hlimited
    rw [hl]
    rfl

theorem limit_eq_of_start {s : Settings} {started : Instant} {site : Site}
    (hstart : Site.start s started = .ok site) : ∀ l ∈ site.limiter, l.limit = s.limit := by
  intro l hl
  have hlimited : s.isLimited = true := by
    rw [← isSome_limiter_of_start hstart, hl]
    rfl
  obtain ⟨l', hl', hlimit, -⟩ := (limiter_of_start hstart).2 hlimited
  cases hl'.symm.trans hl
  exact hlimit

theorem marks_answer [TruthfulStore σ] {s : Settings} {started : Instant} {site : Site}
    (hstart : Site.start s started = .ok site) (around : Surroundings) (req : Request)
    {w : World σ} (hw : TruthfulStore.octets w.store ⊆ Cache.plainOctets) :
    ∃ notes : Journal, (site.answer around req w).2.journal = w.journal ++ notes ∧
      site.Marks s around req w notes := by
  obtain ⟨r, account, notes, elapsed, htally, hanswer, hnotes, haccount⟩ :=
    site.exists_tally_answer around req w
  refine ⟨notes, hnotes, ?_⟩
  constructor
  case id_eq =>
    rw [hanswer]
    exact (values_dressed (by decide) _ _ _).trans (values_marked_id _ _)
  case context => exact ⟨rfl, _, site.answer_eq around req w⟩
  case logged =>
    intro e he v hv
    exact htally.eq_of_id_mem haccount he hv
  case security =>
    intro f hf
    have hfinish := (by decide : ∀ f ∈ securityFields, f.1 ∉ finishNames) f hf
    rw [hanswer, values_dressed hfinish, values_marked_of_mem _ _ hf]
  case limiter_isSome => exact isSome_limiter_of_start hstart
  case limit_eq => exact limit_eq_of_start hstart
  case speaks =>
    have hlimits := site.limits_guarded around (Route.ofPath? req.target.path)
      (site.known around req w) (identifiedIn around w)
    have hspeaks := hlimits.speaks hw
    have hclient : (Context.of (site.known around req w)).clientIp = req.clientIp site.trust :=
      clientIp_routed req site.trust
    rw [hclient] at hspeaks
    rw [site.answer_eq around req w]
    apply hspeaks.congr (status_dressed _ _ _)
    intro name hname
    exact values_dressed_of_mem hname _ _ _

end

/-! ## A site at work -/

namespace Serving

variable {σ : Type} [CounterStore σ] [CacheStore σ] [TruthfulStore σ]

omit [TruthfulStore σ] in
/-- What is noted of a body that is read or dropped has no id. -/
theorem exists_anonymous_notes (site : Site) (around : Surroundings) (serving : Serving σ)
    {st : Step} (hst : ∀ req, st ≠ .request req) : ∃ notes : Journal,
      (serving.step site around st).world.journal = serving.world.journal ++ notes ∧
        ∀ e ∈ notes.events, ∀ v, ("request_id", v) ∉ e.fields := by
  obtain ⟨notes, hnotes, haccount⟩ := exists_unaccounted_notes site around serving hst
  refine ⟨notes, hnotes, fun e he v hv ↦ ?_⟩
  have hmem := mem_account_of_id_mem he hv
  rw [haccount] at hmem
  cases hmem

/-- In these states a rejection is counted exactly if the status is that of a request beyond the
limit, since nothing that is replayed has it. -/
theorem exists_rejections_request (site : Site) (around : Surroundings) {serving : Serving σ}
    (h : serving.Reachable) (req : Request) : ∃ notes : Journal,
      (serving.step site around (.request req)).world.journal = serving.world.journal ++ notes ∧
        notes.countsOf "edge_rate_limit_rejections_total" =
          if (site.answer around req serving.world).1.status = .tooManyRequests then
            [.limiterRejection]
          else [] := by
  obtain ⟨notes, hnotes, haccounts⟩ := site.exists_accounts_answer around req serving.world
  refine ⟨notes, hnotes, haccounts.rejections.trans (if_congr (and_iff_left_of_imp ?_) rfl rfl)⟩
  intro hstatus hhit
  have hlimits := site.limits_guarded around (Route.ofPath? req.target.path)
    (site.known around req serving.world) (identifiedIn around serving.world)
  rw [answer_eq, status_dressed] at hstatus
  have hlets := hlimits.letsIn_eq_false h.isPlain.store_subset hstatus
  have hlookups := haccounts.lookups
  rw [hlets, if_neg fun h ↦ nomatch h.2] at hlookups
  have hmem : .cacheLookup .hit ∈ notes.countsOf "edge_cache_lookups_total" :=
    List.mem_filter.mpr ⟨List.mem_filterMap.mpr ⟨_, hhit, rfl⟩, rfl⟩
  rw [hlookups] at hmem
  cases hmem

end Serving

end Site

end Gatehouse
