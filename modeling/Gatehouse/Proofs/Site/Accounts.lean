import Gatehouse.Proofs.Site.Outcome

/-!
# Every request is accounted for once

Records of requests are written, and requests are counted, in five layers, and in each of them the
way of a request may end early. A request is accounted for once nevertheless, whatever the store,
the tokens and the lookups of users come to: its duration is measured once; its completion is
recorded once, if its path is one that is recorded; and that it was turned away is recorded once, if
the limiter or a gate did that. What the store refused to count and what the cache was asked is
counted once as well. This is **`Site.Serving.accounts_step`**.

A rejection is counted once if the status is that of a request beyond the limit and the response is
not a replay. The last condition is needed: what the cache holds under a key is replayed with its
status, and a store that others write to may hold any: `Site.Serving.replayed_beyond_limit`.

Over a whole run there are as many measurements as requests: **`Site.Serving.measured_run`**.

Each statement is about the notes of one wording or one name. They are all part of what the outcome
of a request tells as its account, `eventsOf_account` and `countsOf_account`, so it is enough to
look at the few shapes that an account can have.
-/

namespace Gatehouse

namespace Journal

/-! ## Kinds of notes -/

/-- The events of a journal with a wording. -/
def eventsOf (j : Journal) (message : String) : List Event :=
  j.events.filter fun e ↦ e.message == message

/-- What is counted in a journal under a name. -/
def countsOf (j : Journal) (name : String) : List Metric :=
  j.metrics.filter fun m ↦ m.name == name

theorem eventsOf_append (j j' : Journal) (message : String) :
    (j ++ j').eventsOf message = j.eventsOf message ++ j'.eventsOf message := by
  rw [eventsOf, events, List.filterMap_append, List.filter_append]
  rfl

theorem countsOf_append (j j' : Journal) (name : String) :
    (j ++ j').countsOf name = j.countsOf name ++ j'.countsOf name := by
  rw [countsOf, metrics, List.filterMap_append, List.filter_append]
  rfl

/-- The wordings of the records that belong to an account. -/
def recordMessages : List String := ["Request completed", "Request rejected"]

/-- The names of what belongs to an account. -/
def accountNames : List String :=
  ["edge_request_duration_seconds", "edge_rate_limit_rejections_total",
    "edge_rate_limit_store_errors_total", "edge_cache_lookups_total"]

theorem isAccount_of_message_mem (e : Event) (h : e.message ∈ recordMessages) :
    (Note.event e).isAccount = true := by
  cases e <;> first | rfl | simp [Event.message, recordMessages] at h

theorem isAccount_of_name_mem (m : Metric) (h : m.name ∈ accountNames) :
    (Note.metric m).isAccount = true := by
  cases m <;> first | rfl | simp [Metric.name, accountNames] at h

/-- A view that leaves out whatever is not part of the account is a view of the account. -/
theorem filterMap_account {α : Type} {view : Note → Option α}
    (hview : ∀ n : Note, ¬ n.isAccount = true → view n = none) (j : Journal) :
    j.account.filterMap view = j.filterMap view := by
  rw [account, List.filterMap_filter]
  refine congrFun (congrArg List.filterMap (funext fun n ↦ ?_)) j
  split_ifs with haccount
  · rfl
  · exact (hview n haccount).symm

theorem eventsOf_account {message : String} (hmessage : message ∈ recordMessages) (j : Journal) :
    j.account.eventsOf message = j.eventsOf message := by
  rw [eventsOf, eventsOf, events, events, List.filter_filterMap, List.filter_filterMap]
  refine filterMap_account (fun n haccount ↦ ?_) j
  cases n with
  | event e =>
    refine Option.filter_eq_none_iff.mpr fun e' he' heq ↦ haccount ?_
    cases he'
    exact isAccount_of_message_mem e (beq_iff_eq.mp heq ▸ hmessage)
  | metric m | call c | visit v => rfl

theorem countsOf_account {name : String} (hname : name ∈ accountNames) (j : Journal) :
    j.account.countsOf name = j.countsOf name := by
  rw [countsOf, countsOf, metrics, metrics, List.filter_filterMap, List.filter_filterMap]
  refine filterMap_account (fun n haccount ↦ ?_) j
  cases n with
  | metric m =>
    refine Option.filter_eq_none_iff.mpr fun m' hm' heq ↦ haccount ?_
    cases hm'
    exact isAccount_of_name_mem m (beq_iff_eq.mp heq ▸ hname)
  | event e | call c | visit v => rfl

end Journal

/-! ## The account of a request -/

namespace Site

section

variable {σ : Type} [CounterStore σ]

/-- Why the limiter turns a request of a client away, if it does. -/
def limiterRefusal? (site : Site) (client : String) (w : World σ) : Option Failure :=
  site.limiter.bind fun l ↦
    match (l.count client w).1 with
    | .error e => some (.store e)
    | .ok n => if n ≤ l.limit then none else some .rateLimited

/-- Who turns a request away, by the name that the log has for it, and why. A gate is not asked
about a request that the limiter turns away. -/
def turnedAway? (site : Site) (around : Surroundings) (route : Option Route) (req : Request)
    (w : World σ) : Option (String × Failure) :=
  match site.limiterRefusal? (Context.of req).clientIp w with
  | some f => some ("rate_limit", f)
  | none => (site.refusal? around route req w.now).map fun away ↦ (away.1.operation, away.2)

/-- What is to be said of the response to a request, and of all that is noted on the way to it. The
request is taken as the layers behind the marks know it, in the state in which it reaches them. -/
structure Accounts (site : Site) (around : Surroundings) (route : Option Route) (req : Request)
    (w : World σ) (r : Response) (notes : Journal) : Prop where
  /-- It is measured once, with the status that the client is told. -/
  measured : ∃ elapsed, notes.countsOf "edge_request_duration_seconds" =
    [.requestDuration (req.route.getD Service.unmatchedEndpoint) req.method.name r.status elapsed]
  /-- That it is answered is recorded once, with this status, if its path is one that is recorded,
  and not at all otherwise. -/
  completed : ∃ elapsed, notes.eventsOf "Request completed" =
    if site.filter.shouldLog req.target.path then
      [.completed req.method.name req.target.path r.status elapsed (Context.of req)]
    else []
  /-- The record is as serious as the status. -/
  completed_level : ∀ e ∈ notes.eventsOf "Request completed", e.level =
    if r.status.code < 400 then .info else if r.status.code < 500 then .warn else .error
  /-- That it is turned away is recorded once, if it is. -/
  rejected : notes.eventsOf "Request rejected" =
    (site.turnedAway? around route req w).toList.map fun away ↦
      .rejected away.1 away.2 (Context.of req)
  /-- This is an error if the status blames the server. -/
  rejected_level : ∀ e ∈ notes.eventsOf "Request rejected", e.level =
    if r.status.isServerError then .error else .warn
  /-- Whoever turns it away has given the response. -/
  status_eq : ∀ away ∈ site.turnedAway? around route req w, r.status = away.2.status
  body_eq : ∀ away ∈ site.turnedAway? around route req w, req.method ≠ .head →
    r.body = (Response.ofFailure away.2).body
  /-- The limiter or a gate turns it away, but not the optional gate. -/
  operation_mem : ∀ away ∈ site.turnedAway? around route req w,
    away.1 ∈ ["rate_limit", "auth_required", "auth_admin"]
  /-- A rejection is counted once, if the status is that of a request beyond the limit and the
  response was not found in the cache. -/
  rejections : notes.countsOf "edge_rate_limit_rejections_total" =
    if r.status = .tooManyRequests ∧ .metric (.cacheLookup .hit) ∉ notes then [.limiterRejection]
    else []
  /-- That the request could not be counted is counted once, if it could not. -/
  storeErrors : notes.countsOf "edge_rate_limit_store_errors_total" =
    if site.limiter.any fun l ↦ !(l.count (Context.of req).clientIp w).1.isOk then
      [.limiterStoreError]
    else []
  /-- Where the cache is looked into, the result is counted once. -/
  lookups : if AsksCache route req ∧ site.letsIn (Context.of req).clientIp w then
      ∃ result, notes.countsOf "edge_cache_lookups_total" = [.cacheLookup result]
    else notes.countsOf "edge_cache_lookups_total" = []

variable {site : Site} {around : Surroundings} {route : Option Route} {req : Request} {w : World σ}
  {r : Response} {account notes : Journal}

theorem limiterRefusal?_eq_none_iff (client : String) :
    site.limiterRefusal? client w = none ↔ site.letsIn client w = true := by
  rw [limiterRefusal?, letsIn]
  rcases site.limiter with _ | l
  · exact iff_of_true rfl rfl
  rcases hcount : (l.count client w).1 with e | n
  · simp only [Option.bind_some, hcount]
    exact iff_of_false (Option.some_ne_none _) Bool.false_ne_true
  · simp [hcount]

/-! ## Behind the limiter -/

theorem Course.eventsOf_rejected {now : Instant}
    (h : Course site around route req now r account) : account.eventsOf "Request rejected" =
      (site.refusal? around route req now).toList.map fun away ↦
        .rejected away.1.operation away.2 (Context.of req) := by
  cases h with
  | refused hrefusal => rw [hrefusal]; rfl
  | looked hcache => rw [hcache.refusal?_eq_none site around now]; rfl
  | handled hrefusal => rw [hrefusal]; rfl

/-- Behind the limiter a status that is the limiter's is one that the cache had. -/
theorem Course.hit_mem {now : Instant} (h : Course site around route req now r account)
    (hstatus : r.status = .tooManyRequests) : .metric (.cacheLookup .hit) ∈ account := by
  cases h with
  | refused hrefusal hfailed => exact absurd (hfailed ▸ hstatus) (of_refusal?_eq_some hrefusal).2
  | looked hcache hhit => exact hhit hstatus ▸ List.mem_singleton_self _
  | handled hrefusal hcache hne => exact absurd hstatus hne

theorem Course.of_mem_refusal? {now : Instant} (h : Course site around route req now r account) :
    ∀ away ∈ site.refusal? around route req now,
      r.status = away.2.status ∧ r.body = (Response.ofFailure away.2).body := by
  cases h with
  | refused hrefusal hstatus hbody =>
    rw [hrefusal]
    rintro _ ⟨⟩
    exact ⟨hstatus, hbody⟩
  | looked hcache => rw [hcache.refusal?_eq_none site around now]; exact nofun
  | handled hrefusal => rw [hrefusal]; exact nofun

/-! ## From the limiter on -/

theorem turnedAway?_of_letsIn (hlets : site.letsIn (Context.of req).clientIp w = true) :
    site.turnedAway? around route req w =
      (site.refusal? around route req w.now).map fun away ↦ (away.1.operation, away.2) := by
  rw [turnedAway?, limiterRefusal?_eq_none_iff _ |>.mpr hlets]

theorem turnedAway?_of_error {l : Limiter} {e : StoreError} (hlimiter : site.limiter = some l)
    (hcount : (l.count (Context.of req).clientIp w).1 = .error e) :
    site.turnedAway? around route req w = some ("rate_limit", .store e) := by
  rw [turnedAway?, limiterRefusal?, hlimiter, Option.bind_some, hcount]

theorem turnedAway?_of_lt {l : Limiter} {n : Nat} (hlimiter : site.limiter = some l)
    (hcount : (l.count (Context.of req).clientIp w).1 = .ok n) (hlt : l.limit < n) :
    site.turnedAway? around route req w = some ("rate_limit", .rateLimited) := by
  rw [turnedAway?, limiterRefusal?, hlimiter, Option.bind_some, hcount]
  simp only [if_neg (Nat.not_le.mpr hlt)]

theorem Tally.eventsOf_rejected (h : Tally site around route req w r account) :
    account.eventsOf "Request rejected" = (site.turnedAway? around route req w).toList.map
      fun away ↦ .rejected away.1 away.2 (Context.of req) := by
  cases h with
  | uncounted hlimiter hcount => rw [turnedAway?_of_error hlimiter hcount]; rfl
  | beyond hlimiter hcount hlt => rw [turnedAway?_of_lt hlimiter hcount hlt]; rfl
  | letIn hlets hcourse =>
    rw [turnedAway?_of_letsIn hlets, Option.toList_map, List.map_map, hcourse.eventsOf_rejected]
    rfl

/-- The response to a request that is turned away. -/
theorem Tally.of_mem_turnedAway? (h : Tally site around route req w r account) :
    ∀ away ∈ site.turnedAway? around route req w,
      r.status = away.2.status ∧ r.body = (Response.ofFailure away.2).body ∧
        away.1 ∈ ["rate_limit", "auth_required", "auth_admin"] := by
  cases h with
  | uncounted hlimiter hcount =>
    rw [turnedAway?_of_error hlimiter hcount]
    rintro _ ⟨⟩
    exact ⟨rfl, rfl, List.mem_cons_self⟩
  | beyond hlimiter hcount hlt hstatus hbody =>
    rw [turnedAway?_of_lt hlimiter hcount hlt]
    rintro _ ⟨⟩
    exact ⟨hstatus, hbody, List.mem_cons_self⟩
  | letIn hlets hcourse =>
    rw [turnedAway?_of_letsIn hlets]
    rintro away haway
    obtain ⟨⟨gate, f⟩, hrefusal, rfl⟩ := Option.map_eq_some_iff.mp haway
    obtain ⟨hstatus, hbody⟩ := hcourse.of_mem_refusal? _ hrefusal
    have hgate := (of_refusal?_eq_some hrefusal).1
    refine ⟨hstatus, hbody, ?_⟩
    cases gate with
    | required | admin => exact of_decide_eq_true rfl
    | optional => exact absurd rfl hgate

/-- Behind the limiter nothing is counted but looks into the cache. -/
theorem Course.countsOf_eq_nil {now : Instant} (h : Course site around route req now r account)
    {name : String} (hname : "edge_cache_lookups_total" ≠ name) : account.countsOf name = [] := by
  cases h with
  | refused | handled => rfl
  | looked => exact List.filter_cons_of_neg (by simpa [Metric.name] using hname)

theorem Tally.countsOf_rejections (h : Tally site around route req w r account) :
    account.countsOf "edge_rate_limit_rejections_total" =
      if r.status = .tooManyRequests ∧ .metric (.cacheLookup .hit) ∉ account then
        [.limiterRejection]
      else [] := by
  cases h with
  | uncounted => rfl
  | beyond hlimiter hcount hlt hstatus => rw [if_pos ⟨hstatus, by simp⟩]; rfl
  | letIn hlets hcourse =>
    rw [hcourse.countsOf_eq_nil (by decide), if_neg fun h ↦ h.2 (hcourse.hit_mem h.1)]

theorem Tally.countsOf_storeErrors (h : Tally site around route req w r account) :
    account.countsOf "edge_rate_limit_store_errors_total" =
      if site.limiter.any fun l ↦ !(l.count (Context.of req).clientIp w).1.isOk then
        [.limiterStoreError]
      else [] := by
  cases h with
  | uncounted hlimiter hcount => rw [hlimiter, Option.any_some, hcount]; rfl
  | beyond hlimiter hcount => rw [hlimiter, Option.any_some, hcount]; rfl
  | letIn hlets hcourse =>
    rw [hcourse.countsOf_eq_nil (by decide)]
    rcases hlimiter : site.limiter with _ | l
    · rfl
    · obtain ⟨n, -, hcount⟩ := (letsIn_iff hlimiter _ w).mp hlets
      rw [Option.any_some, hcount]
      rfl

theorem Tally.countsOf_lookups (h : Tally site around route req w r account) :
    if AsksCache route req ∧ site.letsIn (Context.of req).clientIp w = true then
      ∃ result, account.countsOf "edge_cache_lookups_total" = [.cacheLookup result]
    else account.countsOf "edge_cache_lookups_total" = [] := by
  cases h with
  | uncounted hlimiter hcount =>
    rw [letsIn_eq_false_of_error hlimiter hcount, if_neg fun h ↦ Bool.false_ne_true h.2]
    rfl
  | beyond hlimiter hcount hlt =>
    rw [letsIn_eq_false_of_lt hlimiter hcount hlt, if_neg fun h ↦ Bool.false_ne_true h.2]
    rfl
  | letIn hlets hcourse =>
    cases hcourse with
    | refused hrefusal =>
      have hcache : ¬ AsksCache route req := fun hcache ↦ by
        cases hrefusal.symm.trans (hcache.refusal?_eq_none site around w.now)
      rw [if_neg fun h ↦ hcache h.1]
      rfl
    | looked hcache =>
      rw [if_pos ⟨hcache, hlets⟩]
      exact ⟨_, rfl⟩
    | handled hrefusal hcache =>
      rw [if_neg fun h ↦ hcache h.1]
      rfl

/-! ## The whole account -/

theorem countsOf_record (filter : LogFilter) (req : Request) (status : Http.Status)
    (elapsed : Duration) (name : String) : (filter.record req status elapsed).countsOf name =
      if "edge_request_duration_seconds" = name then
        [.requestDuration (req.route.getD Service.unmatchedEndpoint) req.method.name status elapsed]
      else [] := by
  rw [LogFilter.record]
  split_ifs with hlog hname hname <;>
    simp [Journal.countsOf, Journal.metrics, Metric.name, hname]

theorem eventsOf_record (filter : LogFilter) (req : Request) (status : Http.Status)
    (elapsed : Duration) (message : String) : (filter.record req status elapsed).eventsOf message =
      if "Request completed" = message ∧ filter.shouldLog req.target.path = true then
        [.completed req.method.name req.target.path status elapsed (Context.of req)]
      else [] := by
  rw [LogFilter.record]
  split_ifs with hlog hmessage hmessage <;>
    simp_all [Journal.eventsOf, Journal.events, Event.message]

theorem Tally.eventsOf_completed (h : Tally site around route req w r account) :
    account.eventsOf "Request completed" = [] := by
  cases h with
  | uncounted | beyond => rfl
  | letIn hlets hcourse => cases hcourse <;> rfl

theorem Tally.countsOf_durations (h : Tally site around route req w r account) :
    account.countsOf "edge_request_duration_seconds" = [] := by
  cases h with
  | uncounted | beyond => rfl
  | letIn hlets hcourse => exact hcourse.countsOf_eq_nil (by decide)

/-- What is found in the cache is told in the account, and not in the record. -/
theorem hit_mem_iff {status : Http.Status} {elapsed : Duration}
    (haccount : notes.account = account ++ site.filter.record req status elapsed) :
    .metric (.cacheLookup .hit) ∈ notes ↔ .metric (.cacheLookup .hit) ∈ account := by
  have hrecord : Note.metric (.cacheLookup .hit) ∉ site.filter.record req status elapsed := by
    rw [LogFilter.record]
    split_ifs <;> simp
  calc Note.metric (.cacheLookup .hit) ∈ notes
    _ ↔ .metric (.cacheLookup .hit) ∈ notes.account :=
      (List.mem_filter.trans (and_iff_left rfl)).symm
    _ ↔ .metric (.cacheLookup .hit) ∈ account := by
      rw [haccount, List.mem_append, or_iff_left hrecord]

/-- A tally and the record of the request make its account. -/
theorem Tally.accounts (h : Tally site around route req w r account) {elapsed : Duration}
    (haccount : notes.account = account ++ site.filter.record req r.status elapsed) :
    site.Accounts around route req w r notes := by
  have hevents : ∀ message ∈ Journal.recordMessages, notes.eventsOf message =
      account.eventsOf message ++ (site.filter.record req r.status elapsed).eventsOf message :=
    fun message hmessage ↦ by
      rw [← Journal.eventsOf_account hmessage, haccount, Journal.eventsOf_append]
  have hcounts : ∀ name ∈ Journal.accountNames, notes.countsOf name =
      account.countsOf name ++ (site.filter.record req r.status elapsed).countsOf name :=
    fun name hname ↦ by
      rw [← Journal.countsOf_account hname, haccount, Journal.countsOf_append]
  -- The record has nothing to say of the other counts.
  have hothers : ∀ name ∈ Journal.accountNames, "edge_request_duration_seconds" ≠ name →
      notes.countsOf name = account.countsOf name := fun name hname hne ↦ by
    rw [hcounts name hname, countsOf_record, if_neg hne, List.append_nil]
  have hcompleted : notes.eventsOf "Request completed" =
      if site.filter.shouldLog req.target.path then
        [.completed req.method.name req.target.path r.status elapsed (Context.of req)]
      else [] := by
    rw [hevents _ (by decide), h.eventsOf_completed, eventsOf_record, List.nil_append]
    simp only [true_and]
  have hrejected : notes.eventsOf "Request rejected" =
      (site.turnedAway? around route req w).toList.map fun away ↦
        .rejected away.1 away.2 (Context.of req) := by
    rw [hevents _ (by decide), h.eventsOf_rejected, eventsOf_record, if_neg (by simp),
      List.append_nil]
  constructor
  case measured =>
    refine ⟨elapsed, ?_⟩
    rw [hcounts _ (by decide), h.countsOf_durations, countsOf_record, if_pos rfl, List.nil_append]
  case completed => exact ⟨elapsed, hcompleted⟩
  case completed_level =>
    intro e he
    rw [hcompleted] at he
    split_ifs at he
    · rw [List.mem_singleton.mp he, Event.level, Http.Status.outcome]
      split_ifs <;> rfl
    · cases he
  case rejected => exact hrejected
  case rejected_level =>
    intro e he
    rw [hrejected] at he
    obtain ⟨away, haway, rfl⟩ := List.mem_map.mp he
    rw [(h.of_mem_turnedAway? away (Option.mem_toList.mp haway)).1]
    rfl
  case status_eq => exact fun away haway ↦ (h.of_mem_turnedAway? away haway).1
  case body_eq => exact fun away haway _ ↦ (h.of_mem_turnedAway? away haway).2.1
  case operation_mem => exact fun away haway ↦ (h.of_mem_turnedAway? away haway).2.2
  case rejections =>
    rw [hothers _ (by decide) (by decide), h.countsOf_rejections]
    simp only [hit_mem_iff haccount]
  case storeErrors => rw [hothers _ (by decide) (by decide), h.countsOf_storeErrors]
  case lookups =>
    rw [hothers _ (by decide) (by decide)]
    exact h.countsOf_lookups

/-- What is put on a response, and that only its header fields may be wanted, does not change the
account. -/
theorem Accounts.dressed (h : site.Accounts around route req w r notes) {r' : Response}
    (hstatus : r'.status = r.status) (hbody : req.method ≠ .head → r'.body = r.body) :
    site.Accounts around route req w r' notes where
  measured := hstatus ▸ h.measured
  completed := hstatus ▸ h.completed
  completed_level := hstatus ▸ h.completed_level
  rejected := h.rejected
  rejected_level := hstatus ▸ h.rejected_level
  status_eq away haway := hstatus.trans (h.status_eq away haway)
  body_eq away haway hmethod := (hbody hmethod).trans (h.body_eq away haway hmethod)
  operation_mem := h.operation_mem
  rejections := hstatus ▸ h.rejections
  storeErrors := h.storeErrors
  lookups := h.lookups

end

section

variable {σ : Type} [CounterStore σ] [CacheStore σ]

theorem exists_accounts_answer (site : Site) (around : Surroundings) (req : Request)
    (w : World σ) : ∃ notes : Journal,
      (site.answer around req w).2.journal = w.journal ++ notes ∧
        site.Accounts around (Route.ofPath? req.target.path) (site.known around req w)
          (identifiedIn around w) (site.answer around req w).1 notes := by
  obtain ⟨r, account, notes, elapsed, htally, hanswer, hnotes, haccount⟩ :=
    site.exists_tally_answer around req w
  have hmethod : (site.known around req w).method = req.method := by
    rw [known, routed]
    split <;> rfl
  refine ⟨notes, hnotes, (htally.accounts haccount).dressed ?_ fun hhead ↦ ?_⟩
  · rw [hanswer, status_dressed]
  · rw [hanswer]
    exact (body_dressed req (idIn around w) r).resolve_right fun h ↦ hhead (hmethod.trans h.1)

end

end Site

/-! ## Reading bodies -/

section

variable {σ : Type} [CacheStore σ]

theorem Cache.Capture.unaccounted_finish (c : Capture) :
    (c.finish : Run σ Unit).Unaccounted fun _ ↦ True :=
  (Run.unaccounted_call _ _ _).bind fun answer _ ↦ by
    cases answer with
    | ok _ => exact Run.unaccounted_note rfl
    | error e => exact (Run.unaccounted_note rfl).bind fun _ _ ↦ Run.unaccounted_note rfl

omit [CacheStore σ] in
theorem Cache.Capture.unaccounted_record (c : Capture) (data : Bytes) :
    (c.record data : Run σ _).Unaccounted fun _ ↦ True := by
  rw [record]
  split_ifs
  · exact (Run.unaccounted_note rfl).bind fun _ _ ↦ Run.unaccounted_pure trivial
  · exact Run.unaccounted_pure trivial

/-- What is noted when a body is asked for a frame is about its copy, and not part of an account. -/
theorem Body.unaccounted_poll (b : Body) : (b.poll : Run σ _).Unaccounted fun _ ↦ True := by
  induction b with
  | full data => cases data <;> exact Run.unaccounted_pure trivial
  | framed frames said announced => cases frames <;> exact Run.unaccounted_pure trivial
  | copied inner copy ih =>
    refine ih.bind fun (frame, rest) _ ↦ ?_
    rcases frame with _ | data | trailers | reason <;> rcases copy with _ | c
    case none.some =>
      exact c.unaccounted_finish.bind fun _ _ ↦ Run.unaccounted_pure trivial
    case some.data.some =>
      exact (c.unaccounted_record data).bind fun _ _ ↦ Run.unaccounted_pure trivial
    all_goals exact Run.unaccounted_pure trivial

theorem Body.unaccounted_discard (b : Body) :
    (b.discard : Run σ Unit).Unaccounted fun _ ↦ True := by
  induction b with
  | full data | framed frames said announced => exact Run.unaccounted_pure trivial
  | copied inner copy ih =>
    rcases copy with _ | c
    · exact ih
    · rw [discard]
      split_ifs
      · exact c.unaccounted_finish.bind fun _ _ ↦ ih
      · exact ih

end

/-! ## A site at work -/

namespace Site.Serving

variable {σ : Type} [CounterStore σ] [CacheStore σ] (site : Site) (around : Surroundings)

/-- What is no request adds nothing to the account. -/
theorem exists_unaccounted_notes (s : Serving σ) {st : Step} (hst : ∀ req, st ≠ .request req) :
    ∃ notes : Journal, (s.step site around st).world.journal = s.world.journal ++ notes ∧
      notes.account = [] := by
  cases st with
  | wait d => exact ⟨[], (List.append_nil _).symm, rfl⟩
  | request req => exact absurd rfl (hst req)
  | poll place =>
    rcases hplace : s.bodies[place]? with _ | b <;> simp only [step, hplace]
    · exact ⟨[], (List.append_nil _).symm, rfl⟩
    · exact (b.unaccounted_poll s.world).1
  | drop place =>
    rcases hplace : s.bodies[place]? with _ | b <;> simp only [step, hplace]
    · exact ⟨[], (List.append_nil _).symm, rfl⟩
    · exact (b.unaccounted_discard s.world).1

/-- A step adds as many measurements as requests, and as many records of requests that were answered
as requests whose path is one that is recorded. -/
theorem exists_measured_step (s : Serving σ) (st : Step) :
    ∃ (notes : Journal) (more : List Asked),
      (s.step site around st).world.journal = s.world.journal ++ notes ∧
      (s.step site around st).asked = s.asked ++ more ∧
      (notes.countsOf "edge_request_duration_seconds").length = more.length ∧
      (notes.eventsOf "Request completed").length =
        (more.filter fun a ↦ site.filter.shouldLog a.request.target.path).length := by
  by_cases hst : ∃ req, st = .request req
  · obtain ⟨req, rfl⟩ := hst
    obtain ⟨notes, hnotes, haccounts⟩ := site.exists_accounts_answer around req s.world
    obtain ⟨elapsed, hmeasured⟩ := haccounts.measured
    obtain ⟨elapsed', hcompleted⟩ := haccounts.completed
    have htarget : (site.known around req s.world).target = req.target := by
      rw [known, routed]
      split <;> rfl
    refine ⟨notes, [⟨req, s.world.now, site.admits around req s.world⟩], hnotes, rfl, ?_, ?_⟩
    · rw [hmeasured]
      rfl
    · rw [hcompleted, htarget, List.filter_cons]
      split_ifs <;> rfl
  · have hother : ∀ req, st ≠ .request req := fun req heq ↦ hst ⟨req, heq⟩
    obtain ⟨notes, hnotes, haccount⟩ := exists_unaccounted_notes site around s hother
    refine ⟨notes, [], hnotes, ?_, ?_, ?_⟩
    · rw [toMoment_step_of_ne site around s hother, List.append_nil]
    · rw [← Journal.countsOf_account (by decide), haccount]
      rfl
    · rw [← Journal.eventsOf_account (by decide), haccount]
      rfl

theorem measured_run (store : σ) (now : Instant) (steps : List Step) :
    let s := run site around store now steps
    (s.world.journal.countsOf "edge_request_duration_seconds").length = s.asked.length ∧
      (s.world.journal.eventsOf "Request completed").length =
        (s.asked.filter fun a ↦ site.filter.shouldLog a.request.target.path).length := by
  induction steps using List.reverseRecOn with
  | nil => exact ⟨rfl, rfl⟩
  | append_singleton steps st ih =>
    simp only [run, List.foldl_append, List.foldl_cons, List.foldl_nil] at ih ⊢
    obtain ⟨notes, more, hnotes, hmore, hmeasured, hcompleted⟩ := exists_measured_step site around
      (steps.foldl (step site around) (start store now)) st
    rw [hnotes, hmore, Journal.countsOf_append, Journal.eventsOf_append, List.filter_append]
    simp only [List.length_append, ih.1, ih.2, hmeasured, hcompleted, and_self]

end Site.Serving

end Gatehouse
