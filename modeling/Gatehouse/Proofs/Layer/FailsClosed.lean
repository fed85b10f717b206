import Gatehouse.Proofs.Layer.Passage

/-!
# A limiter that fails closed

The store of a limiter may answer whatever it likes. **`Service.limited_failsClosed`** says for
every answer what becomes of the request: only a count within the limit lets it through, and
neither a failure nor a count beyond the limit does. The store is asked to count once, and for the
time left only after it has counted, both times about the counter of the client.

What the store says about the time left is good for two header fields and nothing else. This is a
statement about two runs with stores that differ in that answer alone, `Service.TtlOnlyDates`: they
leave the same state behind, and their responses agree but for those fields.
-/

namespace Gatehouse

/-! ## What is reported -/

/-- Header fields report how a client stands, each with a single value. -/
structure Headers.Reports (h : Headers) (limit remaining : Nat) (reset : Int) : Prop where
  limit_eq : h.values "x-ratelimit-limit" = [utf8 limit.repr]
  remaining_eq : h.values "x-ratelimit-remaining" = [utf8 remaining.repr]
  reset_eq : h.values "x-ratelimit-reset" = [utf8 reset.repr]

/-- A name under which no limiter reports how a client stands. -/
def Headers.IsUnreported (name : String) : Prop :=
  name ≠ "x-ratelimit-limit" ∧ name ≠ "x-ratelimit-remaining" ∧ name ≠ "x-ratelimit-reset"

namespace Decision

theorem values_report (d : Decision) (h : Headers) (name : String) :
    (d.report h).values name =
      if name = "x-ratelimit-reset" then [utf8 d.resetAt.repr]
      else if name = "x-ratelimit-remaining" then [utf8 d.remaining.repr]
      else if name = "x-ratelimit-limit" then [utf8 d.limit.repr]
      else h.values name := by
  simp only [report, Headers.insertText, Headers.values_insert]

theorem reports_report (d : Decision) (h : Headers) :
    (d.report h).Reports d.limit d.remaining d.resetAt where
  limit_eq := by simp [values_report]
  remaining_eq := by simp [values_report]
  reset_eq := by simp [values_report]

theorem values_report_of_isUnreported (d : Decision) (h : Headers) {name : String}
    (hname : Headers.IsUnreported name) : (d.report h).values name = h.values name := by
  rw [values_report, if_neg hname.2.2, if_neg hname.2.1, if_neg hname.1]

theorem one_le_retryAfter (d : Decision) (now : Int) : 1 ≤ d.retryAfter now := Int.le_max_right _ _

end Decision

/-! ## A check, call by call -/

namespace Limiter

variable {σ : Type} [CounterStore σ] {l : Limiter} {client : String} {w : World σ}

theorem check_of_error {e : StoreError} {s : σ}
    (hcount : CounterStore.increment w.now (l.key client) l.window l.policy w.store
      = (.error e, s)) :
    l.check client w = (.error e,
      { w with store := s, journal := w.journal ++ [.call ⟨.increment, l.key client⟩] }) := by
  simp only [check, Run.increment, Run.call, bind, StateT.bind, hcount]
  rfl

theorem check_of_ok {n : Nat} {left : Except StoreError (Option Duration)} {s s' : σ}
    (hcount : CounterStore.increment w.now (l.key client) l.window l.policy w.store = (.ok n, s))
    (hleft : CounterStore.ttl w.now (l.key client) s = (left, s')) :
    l.check client w = (.ok (l.decide w.now n left),
      { w with
        store := s'
        journal := w.journal ++ [.call ⟨.increment, l.key client⟩,
          .call ⟨.ttl, l.key client⟩] }) := by
  simp only [check, Run.increment, Run.ttl, Run.call, Run.now, bind, StateT.bind, hcount, hleft]
  rw [List.append_assoc]
  rfl

/-- What the time left is taken to be. -/
def timeLeft (l : Limiter) : Except StoreError (Option Duration) → Duration
  | .ok (some left) => left
  | _ => l.window

theorem resetAt_decide (l : Limiter) (now : Instant) (n : Nat)
    (left : Except StoreError (Option Duration)) :
    (l.decide now n left).resetAt = endOf now (l.timeLeft left) := by
  rcases left with e | _ | left <;> rfl

end Limiter

/-! ## The limiter in front of a service -/

namespace Service

variable {σ : Type}

/-- What a limiter does with a request, for every answer of its store about a counter. -/
structure FailsClosed [CounterStore σ] (l : Limiter) (req : Request) (w : World σ) (key : String) :
    Prop where
  /-- A request that cannot be counted is turned away, and nothing more is asked. -/
  uncounted : ∀ e s, CounterStore.increment w.now key l.window l.policy w.store = (.error e, s) →
    (Response.ofFailure (.store e)).status = .internalError ∧
    (∀ name ∈ ["x-ratelimit-limit", "x-ratelimit-remaining", "x-ratelimit-reset", "retry-after"],
      (Response.ofFailure (.store e)).headers.values name = []) ∧
    ∀ next : Service σ, limited l next req w = (.ofFailure (.store e),
      { w with
        store := s
        journal := w.journal ++ [.call ⟨.increment, key⟩, .metric .limiterStoreError,
          .event (.rejected "rate_limit" (.store e) (Context.of req))] })
  /-- A request beyond the limit is turned away with a report of how its client stands. -/
  beyond : ∀ n s left s',
    CounterStore.increment w.now key l.window l.policy w.store = (.ok n, s) →
    CounterStore.ttl w.now key s = (left, s') → l.limit < n →
    ∃ (refusal : Response) (wait : Int),
      refusal.status = .tooManyRequests ∧
      refusal.headers.Reports l.limit 0 (Limiter.endOf w.now (l.timeLeft left)) ∧
      refusal.headers.values "retry-after" = [utf8 wait.repr] ∧ 1 ≤ wait ∧
      ∀ next : Service σ, limited l next req w = (refusal,
        { w with
          store := s'
          journal := w.journal ++ [.call ⟨.increment, key⟩, .call ⟨.ttl, key⟩,
            .metric .limiterRejection,
            .event (.rejected "rate_limit" .rateLimited (Context.of req))] })
  /-- A request within the limit is handed on as it is, and its response comes back with the same
  report in place of what it may have said. -/
  within : ∀ n s left s',
    CounterStore.increment w.now key l.window l.policy w.store = (.ok n, s) →
    CounterStore.ttl w.now key s = (left, s') → n ≤ l.limit → ∀ next : Service σ,
      let answer := next req
        { w with
          store := s'
          journal := w.journal ++ [.call ⟨.increment, key⟩, .call ⟨.ttl, key⟩] }
      ∃ headers : Headers, limited l next req w = ({ answer.1 with headers }, answer.2) ∧
        headers.Reports l.limit (l.limit - n) (Limiter.endOf w.now (l.timeLeft left)) ∧
        ∀ name, Headers.IsUnreported name → headers.values name = answer.1.headers.values name
  /-- A handler is called once if its request was counted and the count is within the limit, and
  otherwise not at all. -/
  visits : ∀ handler : Service σ, (∀ req, (handler req).Quiet) →
    (limited l (observed handler) req w).2.journal.visits = w.journal.visits ++
      match (CounterStore.increment w.now key l.window l.policy w.store).1 with
      | .ok n => if n ≤ l.limit then [⟨req.user, req.context⟩] else []
      | .error _ => []

/-- Take two stores that count alike and that the question for the time left leaves alike, whatever
they answer to it: the responses differ in dates, and nothing else differs. -/
def TtlOnlyDates (l : Limiter) (req : Request) (w : World σ) (key : String) : Prop :=
  ∀ c c' : CounterStore σ,
    c.increment w.now key l.window l.policy w.store
      = c'.increment w.now key l.window l.policy w.store →
    (∀ s, (c.ttl w.now key s).2 = (c'.ttl w.now key s).2) → ∀ next : Service σ,
      let answer := @limited σ c l next req w
      let answer' := @limited σ c' l next req w
      answer.2 = answer'.2 ∧ answer.1.status = answer'.1.status ∧ answer.1.body = answer'.1.body ∧
        ∀ name, name ≠ "x-ratelimit-reset" → name ≠ "retry-after" →
          answer.1.headers.values name = answer'.1.headers.values name

section

variable [CounterStore σ] {l : Limiter} {req : Request} {w : World σ}

theorem limited_of_error {e : StoreError} {s : σ}
    (hcount : CounterStore.increment w.now (l.key (Context.of req).clientIp) l.window l.policy
      w.store = (.error e, s)) (next : Service σ) :
    limited l next req w = (.ofFailure (.store e),
      { w with
        store := s
        journal := w.journal ++ [
          .call ⟨.increment, l.key (Context.of req).clientIp⟩,
          .metric .limiterStoreError,
          .event (.rejected "rate_limit" (.store e) (Context.of req))] }) := by
  simp only [limited, bind, StateT.bind, Limiter.check_of_error hcount]
  simp [reject, Run.count, Run.log, Run.note, bind, StateT.bind]
  rfl

variable {n : Nat} {left : Except StoreError (Option Duration)} {s s' : σ}

theorem limited_of_lt
    (hcount : CounterStore.increment w.now (l.key (Context.of req).clientIp) l.window l.policy
      w.store = (.ok n, s))
    (hleft : CounterStore.ttl w.now (l.key (Context.of req).clientIp) s = (left, s'))
    (hlt : l.limit < n) (next : Service σ) :
    limited l next req w =
      (overLimit (l.decide w.now n left) w.now (.ofFailure .rateLimited),
        { w with
          store := s'
          journal := w.journal ++ [
            .call ⟨.increment, l.key (Context.of req).clientIp⟩,
            .call ⟨.ttl, l.key (Context.of req).clientIp⟩,
            .metric .limiterRejection,
            .event (.rejected "rate_limit" .rateLimited (Context.of req))] }) := by
  have hrefused : (l.decide w.now n left).admitted = false :=
    decide_eq_false (Nat.not_le.mpr hlt)
  simp only [limited, bind, StateT.bind, Limiter.check_of_ok hcount hleft, hrefused]
  simp [reject, Run.count, Run.log, Run.note, Run.now, bind, StateT.bind]
  rfl

theorem limited_of_le
    (hcount : CounterStore.increment w.now (l.key (Context.of req).clientIp) l.window l.policy
      w.store = (.ok n, s))
    (hleft : CounterStore.ttl w.now (l.key (Context.of req).clientIp) s = (left, s'))
    (hle : n ≤ l.limit) (next : Service σ) :
    let answer := next req
      { w with
        store := s'
        journal := w.journal ++ [
          .call ⟨.increment, l.key (Context.of req).clientIp⟩,
          .call ⟨.ttl, l.key (Context.of req).clientIp⟩] }
    limited l next req w =
      ({ answer.1 with headers := (l.decide w.now n left).report answer.1.headers },
        answer.2) := by
  have hadmitted : (l.decide w.now n left).admitted = true := decide_eq_true hle
  simp only [limited, bind, StateT.bind, Limiter.check_of_ok hcount hleft, hadmitted]
  rfl

end

theorem values_overLimit (d : Decision) (now : Instant) (refusal : Response) (name : String) :
    (overLimit d now refusal).headers.values name =
      if name = "retry-after" then [utf8 (d.retryAfter now.unixSecs).repr]
      else (d.report refusal.headers).values name := by
  rw [overLimit, Response.withText, Headers.insertText, Headers.values_insert]

theorem reports_overLimit (d : Decision) (now : Instant) (refusal : Response) :
    (overLimit d now refusal).headers.Reports d.limit d.remaining d.resetAt where
  limit_eq := by simp [values_overLimit, (d.reports_report refusal.headers).limit_eq]
  remaining_eq := by simp [values_overLimit, (d.reports_report refusal.headers).remaining_eq]
  reset_eq := by simp [values_overLimit, (d.reports_report refusal.headers).reset_eq]

theorem failsClosed [CounterStore σ] (l : Limiter) (req : Request) (w : World σ) :
    FailsClosed l req w (l.key (Context.of req).clientIp) := by
  constructor
  case uncounted =>
    intro e s hcount
    exact ⟨rfl, by simp [Response.ofFailure, Response.ofJson, Response.ofBytes, Headers.values],
      limited_of_error hcount⟩
  case beyond =>
    intro n s left s' hcount hleft hlt
    have hreports := reports_overLimit (l.decide w.now n left) w.now (.ofFailure .rateLimited)
    have hnone : (l.decide w.now n left).remaining = 0 := Nat.sub_eq_zero_of_le (Nat.le_of_lt hlt)
    rw [hnone, Limiter.resetAt_decide] at hreports
    refine ⟨_, (l.decide w.now n left).retryAfter w.now.unixSecs, rfl, hreports, ?_,
      Decision.one_le_retryAfter _ _, limited_of_lt hcount hleft hlt⟩
    rw [values_overLimit, if_pos rfl]
  case within =>
    intro n s left s' hcount hleft hle next answer
    have hreports := (l.decide w.now n left).reports_report answer.1.headers
    rw [Limiter.resetAt_decide] at hreports
    exact ⟨_, limited_of_le hcount hleft hle next, hreports,
      fun name hname ↦ Decision.values_report_of_isUnreported _ _ hname⟩
  case visits =>
    intro handler hquiet
    rcases hcount : CounterStore.increment w.now (l.key (Context.of req).clientIp) l.window l.policy
      w.store with ⟨e | n, s⟩
    · rw [limited_of_error hcount]
      exact List.filterMap_append
    · rcases hleft : CounterStore.ttl w.now (l.key (Context.of req).clientIp) s with ⟨left, s'⟩
      rcases Nat.lt_or_ge l.limit n with hlt | hle
      · rw [limited_of_lt hcount hleft hlt]
        simp only [if_neg (Nat.not_le.mpr hlt)]
        exact List.filterMap_append
      · rw [limited_of_le hcount hleft hle]
        simp only [if_pos hle, visits_observed (hquiet req)]
        refine congrArg (· ++ _) (List.filterMap_append.trans (List.append_nil _))

theorem ttlOnlyDates (l : Limiter) (req : Request) (w : World σ) :
    TtlOnlyDates l req w (l.key (Context.of req).clientIp) := by
  intro c c' hsame hleave next
  rcases hcount : c.increment w.now (l.key (Context.of req).clientIp) l.window l.policy w.store
    with ⟨e | n, s⟩
  · have hcount' := hsame.symm.trans hcount
    dsimp only
    rw [@limited_of_error _ c _ _ _ _ _ hcount, @limited_of_error _ c' _ _ _ _ _ hcount']
    exact ⟨rfl, rfl, rfl, fun _ _ _ ↦ rfl⟩
  have hcount' := hsame.symm.trans hcount
  rcases hleft : c.ttl w.now (l.key (Context.of req).clientIp) s with ⟨left, t⟩
  rcases hleft' : c'.ttl w.now (l.key (Context.of req).clientIp) s with ⟨left', t'⟩
  obtain rfl : t = t' := by simpa only [hleft, hleft'] using hleave s
  rcases Nat.lt_or_ge l.limit n with hlt | hle
  · dsimp only
    rw [@limited_of_lt _ c _ _ _ _ _ _ _ hcount hleft hlt,
      @limited_of_lt _ c' _ _ _ _ _ _ _ hcount' hleft' hlt]
    refine ⟨rfl, rfl, rfl, fun name hreset hretry ↦ ?_⟩
    simp only [values_overLimit, Decision.values_report, if_neg hreset, if_neg hretry]
    rfl
  · dsimp only
    rw [@limited_of_le _ c _ _ _ _ _ _ _ hcount hleft hle,
      @limited_of_le _ c' _ _ _ _ _ _ _ hcount' hleft' hle]
    refine ⟨rfl, rfl, rfl, fun name hreset _ ↦ ?_⟩
    simp only [Decision.values_report, if_neg hreset]
    rfl

/-- **A limiter fails closed**, whatever its store answers about the counter of a client: it counts
a request once, hands it on if the count is within the limit and not otherwise, and lets the answer
about the time left change nothing but two dates. -/
theorem limited_failsClosed [CounterStore σ] (l : Limiter) (req : Request) (w : World σ) :
    FailsClosed l req w (l.keyPrefix ++ (Context.of req).clientIp) ∧
      TtlOnlyDates l req w (l.keyPrefix ++ (Context.of req).clientIp) :=
  ⟨failsClosed l req w, ttlOnlyDates l req w⟩

end Service

end Gatehouse
