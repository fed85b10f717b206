import Gatehouse.Layer
import Gatehouse.Store.Memory
import Mathlib.Tactic.SplitIfs

/-!
# How a request passes the layers

Every layer has two faces. On the way in it meets a request, and either answers by itself or hands
a request on: `Layer.enter`. On the way out it meets the response to a request that it handed on:
`Layer.leave`. `Service.wrapped_apply` says that a layer around a service is nothing else, with one
case for each kind of layer; what a list of layers does then follows by induction.

**`Service.stacked_passage`**: a request passes the layers from the outside in, each in the state
that those further out have left. If all of them let it through, the handler is run once, and if
one does not, the answer of that one is all there is: what is further in, layers and handler alike,
has no part in it. In both cases the layers that were passed, and only those, work on the response
on its way out.
-/

namespace Gatehouse

variable {σ : Type}

/-! ## Runs without visits -/

namespace Run

variable {α β : Type}

/-- No visit of a handler is noted, whatever state the run starts in. -/
def Quiet (r : Run σ α) : Prop := ∀ w, (r w).2.journal.visits = w.journal.visits

theorem quiet_pure (a : α) : (pure a : Run σ α).Quiet := fun _ ↦ rfl

theorem Quiet.bind {r : Run σ α} {f : α → Run σ β} (hr : r.Quiet) (hf : ∀ a, (f a).Quiet) :
    (r >>= f).Quiet := fun w ↦ (hf (r w).1 (r w).2).trans (hr w)

theorem quiet_note {n : Note} (hn : ∀ v, n ≠ .visit v) : (note n : Run σ Unit).Quiet := by
  intro w
  have hnone : Journal.visits [n] = [] := by
    cases n with
    | visit v => exact absurd rfl (hn v)
    | event e | metric m | call c => rfl
  rw [note, Journal.visits, List.filterMap_append]
  exact (congrArg _ hnone).trans (List.append_nil _)

theorem quiet_log (e : Event) : (log e : Run σ Unit).Quiet := quiet_note fun _ ↦ nofun

theorem quiet_count (m : Metric) : (count m : Run σ Unit).Quiet := quiet_note fun _ ↦ nofun

theorem quiet_now : (now : Run σ Instant).Quiet := fun _ ↦ rfl

theorem quiet_draw (around : Surroundings) : (draw around : Run σ Nat).Quiet := fun _ ↦ rfl

theorem quiet_call (op : StoreOp) (subject : String) (access : Instant → Access σ α) :
    (call op subject access).Quiet := fun w ↦
  quiet_note (σ := σ) (n := .call ⟨op, subject⟩) (fun _ ↦ nofun) w

end Run

/-- A handler that notes no visits by itself is visited once, with what the request holds. -/
theorem Service.visits_observed {handler : Service σ} {req : Request} (h : (handler req).Quiet)
    (w : World σ) : (Service.observed handler req w).2.journal.visits
      = w.journal.visits ++ [⟨req.user, req.context⟩] :=
  (h _).trans List.filterMap_append

variable [CounterStore σ] [CacheStore σ] (around : Surroundings)

/-! ## The two faces of a layer -/

namespace Layer

/-- What a gate does with a request, once it has found out whose it is. -/
def judge (gate : Gate) (req : Request) (who : Except Failure User) :
    Run σ (Except Response Request) :=
  match gate.letThrough who with
  | .error f => do
    Run.count (.authFailure gate f.code)
    return .error (← Service.reject gate.operation (Context.of req) f)
  | .ok none => return .ok req
  | .ok (some u) => return .ok { req with user := some u }

/-- What a layer does with a request: it answers, or hands a request on. -/
def enter (layer : Layer) (req : Request) : Run σ (Except Response Request) :=
  match layer with
  | .requestId trust => do
    let id := Uuid.ofRandom (← Run.draw around)
    return .ok { req with context := some (Context.capture req id trust) }
  | .rateLimit limiter => do
    let who := Context.of req
    match ← limiter.check who.clientIp with
    | .error e =>
      Run.count .limiterStoreError
      return .error (← Service.reject "rate_limit" who (.store e))
    | .ok decision =>
      if decision.admitted then
        return .ok req
      else
        Run.count .limiterRejection
        let refusal ← Service.reject "rate_limit" who .rateLimited
        return .error (Service.overLimit decision (← Run.now) refusal)
  | .cache settings =>
    if req.method ≠ .get then return .ok req
    else do
      match ← Service.lookup? (settings.key req) with
      | some response => return .error response
      | none => return .ok req
  | .auth gate cookie => do
    let who := req.headers.authenticate around cookie (← Run.now)
    match gate.tolerated? who with
    | none => pure ()
    | some f =>
      Run.count (.authFailure gate f.code)
      Run.log (.anonymous f)
    judge gate req who
  | .securityHeaders | .logger _ | .invalidate _ => return .ok req

/-- What a layer does with the response to a request that it met in a state and handed on. -/
def leave (layer : Layer) (req : Request) (w : World σ) (r : Response) : Run σ Response :=
  match layer with
  | .requestId _ => return r.withText requestIdField (Uuid.ofRandom (around.random w.drawn))
  | .securityHeaders => return { r with headers := r.headers.secured }
  | .logger filter => do
    let elapsed := (← Run.now) - w.now
    Run.count (.requestDuration (req.route.getD Service.unmatchedEndpoint) req.method.name r.status
      elapsed)
    if filter.shouldLog req.target.path then
      Run.log (.completed req.method.name req.target.path r.status elapsed (Context.of req))
    return r
  | .rateLimit limiter =>
    match (limiter.check (Context.of req).clientIp w).1 with
    | .ok decision => return { r with headers := decision.report r.headers }
    | .error _ => return r
  | .cache settings =>
    if req.method ≠ .get then return r else Service.capturing settings (settings.key req) r
  | .invalidate pattern => do
    Service.invalidation pattern
    return r
  | .auth _ _ => return r

end Layer

namespace Service

/-- A layer around a service meets the request, and the response if it has handed a request on. -/
theorem wrapped_apply (layer : Layer) (inner : Service σ) (req : Request) (w : World σ) :
    wrapped around layer inner req w =
      match layer.enter around req w with
      | (.error r, w') => (r, w')
      | (.ok next, w') => (inner next >>= layer.leave around req w) w' := by
  cases layer with
  | requestId trust => rfl
  | securityHeaders => rfl
  | logger filter => rfl
  | invalidate pattern => rfl
  | rateLimit limiter =>
    rcases hcheck : limiter.check (Context.of req).clientIp w with ⟨e | d, w'⟩
    · simp only [wrapped, limited, Layer.enter, bind, StateT.bind, hcheck]
      rfl
    · cases hadmitted : d.admitted <;>
        simp only [wrapped, limited, Layer.enter, Layer.leave, bind, StateT.bind, hcheck,
          hadmitted] <;>
        rfl
  | cache settings =>
    by_cases hget : req.method ≠ .get
    · have hleave : Layer.leave around (.cache settings) req w = pure := funext fun r ↦ if_pos hget
      simp only [wrapped, cached, Layer.enter, if_pos hget, hleave]
      exact congrFun (bind_pure (inner req)).symm w
    · rcases hlookup : lookup? (settings.key req) w with ⟨_ | r, w'⟩ <;>
        simp only [wrapped, cached, Layer.enter, Layer.leave, if_neg hget, bind, StateT.bind,
          hlookup] <;>
        rfl
  | auth gate cookie =>
    rcases htolerated : gate.tolerated? (req.headers.authenticate around cookie w.now)
      with _ | f <;>
      rcases hlet : gate.letThrough (req.headers.authenticate around cookie w.now)
        with f | _ | u <;>
      simp only [wrapped, gated, Layer.enter, Layer.judge, Layer.leave, bind, StateT.bind, Run.now,
        htolerated, hlet] <;>
      rfl

end Service

/-! ## Letting a request through -/

namespace Layer

/-- A layer lets a request through: a limiter admits it, a cache has no answer to it, a gate knows
as whom. -/
def Passes (layer : Layer) (req : Request) (w : World σ) : Prop :=
  match layer with
  | .rateLimit limiter =>
    ∃ d, (limiter.check (Context.of req).clientIp w).1 = .ok d ∧ d.admitted = true
  | .cache settings => req.method = .get → (Service.lookup? (settings.key req) w).1 = none
  | .auth gate cookie =>
    ∃ u, gate.letThrough (req.headers.authenticate around cookie w.now) = .ok u
  | .requestId _ | .securityHeaders | .logger _ | .invalidate _ => True

omit [CounterStore σ] [CacheStore σ] in
theorem exists_judge_iff (gate : Gate) (req : Request) (who : Except Failure User) (w : World σ) :
    (∃ next, (judge gate req who w).1 = .ok next) ↔ ∃ u, gate.letThrough who = .ok u := by
  rcases hlet : gate.letThrough who with f | _ | u <;> simp only [judge, hlet]
  · exact ⟨fun ⟨_, h⟩ ↦ (nomatch h), fun ⟨_, h⟩ ↦ (nomatch h)⟩
  · exact ⟨fun _ ↦ ⟨none, rfl⟩, fun _ ↦ ⟨req, rfl⟩⟩
  · exact ⟨fun _ ↦ ⟨some u, rfl⟩, fun _ ↦ ⟨{ req with user := some u }, rfl⟩⟩

theorem passes_iff (layer : Layer) (req : Request) (w : World σ) :
    layer.Passes around req w ↔ ∃ next, (layer.enter around req w).1 = .ok next := by
  cases layer with
  | requestId trust => exact ⟨fun _ ↦ ⟨_, rfl⟩, fun _ ↦ trivial⟩
  | securityHeaders => exact ⟨fun _ ↦ ⟨_, rfl⟩, fun _ ↦ trivial⟩
  | logger filter => exact ⟨fun _ ↦ ⟨_, rfl⟩, fun _ ↦ trivial⟩
  | invalidate pattern => exact ⟨fun _ ↦ ⟨_, rfl⟩, fun _ ↦ trivial⟩
  | rateLimit limiter =>
    rcases hcheck : limiter.check (Context.of req).clientIp w with ⟨e | d, w'⟩
    · simp only [Passes, enter, bind, StateT.bind, hcheck]
      exact ⟨fun ⟨_, h, _⟩ ↦ (nomatch h), fun ⟨_, h⟩ ↦ (nomatch h)⟩
    · cases hadmitted : d.admitted with
      | false =>
        simp only [Passes, enter, bind, StateT.bind, hcheck, hadmitted]
        refine ⟨fun ⟨d', h, h'⟩ ↦ ?_, fun ⟨_, h⟩ ↦ (nomatch h)⟩
        cases h
        rw [hadmitted] at h'
        cases h'
      | true =>
        simp only [Passes, enter, bind, StateT.bind, hcheck, hadmitted]
        exact ⟨fun _ ↦ ⟨req, rfl⟩, fun _ ↦ ⟨d, rfl, hadmitted⟩⟩
  | cache settings =>
    by_cases hget : req.method = .get
    · rcases hlookup : Service.lookup? (settings.key req) w with ⟨_ | r, w'⟩
      · simp only [Passes, enter, if_neg (not_not_intro hget), bind, StateT.bind, hlookup]
        exact ⟨fun _ ↦ ⟨req, rfl⟩, fun _ _ ↦ trivial⟩
      · simp only [Passes, enter, if_neg (not_not_intro hget), bind, StateT.bind, hlookup]
        exact ⟨fun h ↦ (nomatch h hget), fun ⟨_, h⟩ ↦ (nomatch h)⟩
    · simp only [Passes, enter, if_pos hget]
      exact ⟨fun _ ↦ ⟨req, rfl⟩, fun _ h ↦ absurd h hget⟩
  | auth gate cookie =>
    rcases htolerated : gate.tolerated? (req.headers.authenticate around cookie w.now)
      with _ | f <;>
      simp only [Passes, enter, bind, StateT.bind, Run.now, htolerated] <;>
      exact (exists_judge_iff gate req _ _).symm

/-! ## Several layers -/

/-- A layer that was passed, with the request and the state that it met. -/
structure Passed (σ : Type) where
  layer : Layer
  request : Request
  world : World σ

/-- How far a request comes: to the answer of a layer, or through all of them. -/
def arrive : List Layer → Request → World σ → Except Response Request × World σ
  | [], req, w => (.ok req, w)
  | layer :: inner, req, w =>
    match layer.enter around req w with
    | (.error r, w') => (.error r, w')
    | (.ok next, w') => arrive inner next w'

/-- The layers that a request passes, the outermost first. -/
def passed : List Layer → Request → World σ → List (Passed σ)
  | [], _, _ => []
  | layer :: inner, req, w =>
    match layer.enter around req w with
    | (.error _, _) => []
    | (.ok next, w') => ⟨layer, req, w⟩ :: passed inner next w'

/-- What the layers that were passed do with the response, the innermost first. -/
def leaveAll (through : List (Passed σ)) (r : Response) : Run σ Response :=
  through.foldr (fun p run ↦ run >>= p.layer.leave around p.request p.world) (pure r)

/-- All layers let a request through, each in the state that those further out have left. -/
def AllPass : List Layer → Request → World σ → Prop
  | [], _, _ => True
  | layer :: inner, req, w =>
    layer.Passes around req w ∧
      ∀ next w', layer.enter around req w = (.ok next, w') → AllPass inner next w'

theorem allPass_iff (layers : List Layer) (req : Request) (w : World σ) :
    AllPass around layers req w ↔ ∃ next, (arrive around layers req w).1 = .ok next := by
  induction layers generalizing req w with
  | nil => exact ⟨fun _ ↦ ⟨req, rfl⟩, fun _ ↦ trivial⟩
  | cons layer inner ih =>
    rw [AllPass, passes_iff]
    rcases henter : layer.enter around req w with ⟨r | next, w'⟩
    · simp only [arrive, henter]
      exact ⟨fun ⟨⟨_, h⟩, _⟩ ↦ (nomatch h), fun ⟨_, h⟩ ↦ (nomatch h)⟩
    · simp only [arrive, henter, ← ih next w']
      refine ⟨fun h ↦ h.2 next w' rfl, fun h ↦ ⟨⟨next, rfl⟩, ?_⟩⟩
      intro next' w'' heq
      cases heq
      exact h

/-- Layers that all let the request through are all passed. -/
theorem map_passed_of_allPass {layers : List Layer} {req : Request} {w : World σ}
    (h : AllPass around layers req w) : (passed around layers req w).map Passed.layer = layers := by
  induction layers generalizing req w with
  | nil => rfl
  | cons layer inner ih =>
    obtain ⟨hpasses, hinner⟩ := h
    obtain ⟨next, henter⟩ := (passes_iff around layer req w).mp hpasses
    rcases hw : layer.enter around req w with ⟨r | next', w'⟩
    · rw [hw] at henter
      cases henter
    · simp only [passed, hw, List.map_cons, ih (hinner next' w' hw)]

/-- If not all layers let the request through, one of them answers, and how far the request comes
does not depend on what is further in. -/
theorem exists_answer_of_not_allPass {layers : List Layer} {req : Request} {w : World σ}
    (h : ¬ AllPass around layers req w) :
    ∃ outer layer inner next w' r w'', layers = outer ++ layer :: inner ∧
      AllPass around outer req w ∧ arrive around outer req w = (.ok next, w') ∧
      layer.enter around next w' = (.error r, w'') ∧
      ∀ inner', arrive around (outer ++ layer :: inner') req w = (.error r, w'') ∧
        passed around (outer ++ layer :: inner') req w = passed around outer req w := by
  induction layers generalizing req w with
  | nil => exact absurd trivial h
  | cons layer inner ih =>
    rcases henter : layer.enter around req w with ⟨r | next, w'⟩
    · refine ⟨[], layer, inner, req, w, r, w', rfl, trivial, rfl, henter, fun inner' ↦ ?_⟩
      simp only [List.nil_append, arrive, passed, henter]
      exact ⟨trivial, trivial⟩
    · have hpasses : layer.Passes around req w :=
        (passes_iff around layer req w).mpr ⟨next, by rw [henter]⟩
      have hinner : ¬ AllPass around inner next w' := fun hall ↦ h ⟨hpasses, fun next' w'' heq ↦ by
        rw [henter] at heq
        cases heq
        exact hall⟩
      obtain ⟨outer, l, rest, next', v, r, v', rfl, hall, harrive, hanswer, hsame⟩ := ih hinner
      refine ⟨layer :: outer, l, rest, next', v, r, v', rfl, ⟨hpasses, ?_⟩, ?_, hanswer, ?_⟩
      · intro next'' w'' heq
        rw [henter] at heq
        cases heq
        exact hall
      · simp only [arrive, henter, harrive]
      · intro inner'
        obtain ⟨harrive', hpassed⟩ := hsame inner'
        simp only [List.cons_append, arrive, passed, henter, harrive', hpassed]
        exact ⟨trivial, trivial⟩

/-! ## Layers note no visits -/

omit [CacheStore σ] in
theorem quiet_check (limiter : Limiter) (client : String) :
    (limiter.check client : Run σ _).Quiet :=
  (Run.quiet_call _ _ _).bind fun answer ↦ by
    cases answer with
    | error e => exact Run.quiet_pure _
    | ok count =>
      exact (Run.quiet_call _ _ _).bind fun _ ↦ Run.quiet_now.bind fun _ ↦ Run.quiet_pure _

omit [CounterStore σ] [CacheStore σ] in
theorem quiet_reject (operation : String) (who : Context) (f : Failure) :
    (Service.reject operation who f : Run σ _).Quiet :=
  (Run.quiet_log _).bind fun _ ↦ Run.quiet_pure _

omit [CounterStore σ] [CacheStore σ] in
theorem quiet_judge (gate : Gate) (req : Request) (who : Except Failure User) :
    (judge gate req who : Run σ _).Quiet := by
  rw [judge]
  rcases gate.letThrough who with f | _ | u
  · exact (Run.quiet_count _).bind fun _ ↦ (quiet_reject _ _ _).bind fun _ ↦ Run.quiet_pure _
  · exact Run.quiet_pure _
  · exact Run.quiet_pure _

omit [CounterStore σ] in
theorem quiet_lookup? (key : String) : (Service.lookup? key : Run σ _).Quiet :=
  (Run.quiet_call _ _ _).bind fun answer ↦ by
    rcases answer with e | _ | raw
    · exact (Run.quiet_count _).bind fun _ ↦ (Run.quiet_log _).bind fun _ ↦ Run.quiet_pure _
    · exact (Run.quiet_count _).bind fun _ ↦ Run.quiet_pure _
    · cases hrestore : Cache.Entry.restore raw with
      | error e =>
        simp only [hrestore]
        exact (Run.quiet_count _).bind fun _ ↦ (Run.quiet_log _).bind fun _ ↦ Run.quiet_pure _
      | ok response =>
        simp only [hrestore]
        exact (Run.quiet_count _).bind fun _ ↦ Run.quiet_pure _

omit [CounterStore σ] [CacheStore σ] in
theorem quiet_capturing (settings : CacheSettings) (key : String) (r : Response) :
    (Service.capturing settings key r : Run σ _).Quiet := by
  rw [Service.capturing]
  split_ifs
  · exact Run.quiet_pure _
  · exact (Run.quiet_count _).bind fun _ ↦ Run.quiet_pure _
  · exact (Run.quiet_count _).bind fun _ ↦ Run.quiet_pure _
  · exact Run.quiet_pure _

omit [CounterStore σ] in
theorem quiet_invalidation (pattern : String) : (Service.invalidation pattern : Run σ _).Quiet :=
  (Run.quiet_call _ _ _).bind fun answer ↦ by
    cases answer with
    | error e => exact (Run.quiet_count _).bind fun _ ↦ Run.quiet_log _
    | ok n => exact Run.quiet_count _

theorem quiet_enter (layer : Layer) (req : Request) :
    (layer.enter around req : Run σ _).Quiet := by
  cases layer with
  | requestId trust => exact (Run.quiet_draw around).bind fun _ ↦ Run.quiet_pure _
  | securityHeaders => exact Run.quiet_pure _
  | logger filter => exact Run.quiet_pure _
  | invalidate pattern => exact Run.quiet_pure _
  | rateLimit limiter =>
    refine (quiet_check limiter _).bind fun answer ↦ ?_
    cases answer with
    | error e =>
      exact (Run.quiet_count _).bind fun _ ↦ (quiet_reject _ _ _).bind fun _ ↦ Run.quiet_pure _
    | ok decision =>
      cases hadmitted : decision.admitted with
      | false =>
        simp only [hadmitted]
        exact (Run.quiet_count _).bind fun _ ↦ (quiet_reject _ _ _).bind fun _ ↦
          Run.quiet_now.bind fun _ ↦ Run.quiet_pure _
      | true =>
        simp only [hadmitted]
        exact Run.quiet_pure _
  | cache settings =>
    rw [enter]
    split_ifs
    · exact Run.quiet_pure _
    · refine (quiet_lookup? _).bind fun answer ↦ ?_
      cases answer with
      | none => exact Run.quiet_pure _
      | some r => exact Run.quiet_pure _
  | auth gate cookie =>
    refine Run.quiet_now.bind fun now ↦ ?_
    cases htolerated : gate.tolerated? (req.headers.authenticate around cookie now) with
    | none =>
      simp only [htolerated]
      exact quiet_judge gate req _
    | some f =>
      simp only [htolerated]
      exact (Run.quiet_count _).bind fun _ ↦ (Run.quiet_log _).bind fun _ ↦ quiet_judge gate req _

theorem quiet_leave (layer : Layer) (req : Request) (w : World σ) (r : Response) :
    (layer.leave around req w r).Quiet := by
  cases layer with
  | requestId trust => exact Run.quiet_pure _
  | securityHeaders => exact Run.quiet_pure _
  | logger filter =>
    refine Run.quiet_now.bind fun now ↦ (Run.quiet_count _).bind fun _ ↦ ?_
    split_ifs
    · exact (Run.quiet_log _).bind fun _ ↦ Run.quiet_pure _
    · exact Run.quiet_pure _
  | invalidate pattern => exact (quiet_invalidation pattern).bind fun _ ↦ Run.quiet_pure _
  | rateLimit limiter =>
    rw [leave]
    cases (limiter.check (Context.of req).clientIp w).1 with
    | error e => exact Run.quiet_pure _
    | ok decision => exact Run.quiet_pure _
  | cache settings =>
    rw [leave]
    split_ifs
    · exact Run.quiet_pure _
    · exact quiet_capturing settings _ r
  | auth gate cookie => exact Run.quiet_pure _

theorem visits_arrive (layers : List Layer) (req : Request) (w : World σ) :
    (arrive around layers req w).2.journal.visits = w.journal.visits := by
  induction layers generalizing req w with
  | nil => rfl
  | cons layer inner ih =>
    have hquiet := quiet_enter around layer req w
    rcases henter : layer.enter around req w with ⟨r | next, w'⟩
    · rw [henter] at hquiet
      simp only [arrive, henter, hquiet]
    · rw [henter] at hquiet
      simp only [arrive, henter, ih, hquiet]

theorem quiet_leaveAll (through : List (Passed σ)) (r : Response) :
    (leaveAll around through r).Quiet := by
  induction through with
  | nil => exact Run.quiet_pure r
  | cons p through ih => exact ih.bind fun r' ↦ quiet_leave around p.layer p.request p.world r'

end Layer

namespace Service

open Layer

/-- A list of layers around a handler: the way in as far as it goes, the handler if it is reached,
and the way out. -/
theorem stacked_apply (layers : List Layer) (handler : Service σ) (req : Request) (w : World σ) :
    stacked around layers handler req w =
      match arrive around layers req w with
      | (.error r, w') => leaveAll around (passed around layers req w) r w'
      | (.ok next, w') => (handler next >>= leaveAll around (passed around layers req w)) w' := by
  induction layers generalizing req w with
  | nil => exact congrFun (bind_pure (handler req)).symm w
  | cons layer inner ih =>
    have hstacked : stacked around (layer :: inner) handler req w
        = wrapped around layer (stacked around inner handler) req w := rfl
    rw [hstacked, wrapped_apply]
    rcases henter : layer.enter around req w with ⟨r | next, w'⟩
    · simp only [arrive, passed, henter]
      rfl
    · simp only [arrive, passed, henter, bind, StateT.bind, ih]
      rcases arrive around inner next w' with ⟨r | next', w''⟩ <;> rfl

/-- **A request passes the layers from the outside in.** If all of them let it through, the handler
runs once, between the way in and the way out. If not, one of them answers, and what is further in
has no part in the response or in what is left behind. The layers that were passed work on the
response in either case. -/
theorem stacked_passage (layers : List Layer) (req : Request) (w : World σ) :
    ((AllPass around layers req w ∧
        (passed around layers req w).map Passed.layer = layers ∧
        ∃ next w', ∀ handler, stacked around layers handler req w =
          (handler next >>= leaveAll around (passed around layers req w)) w') ∨
      (¬ AllPass around layers req w ∧
        ∃ outer layer inner next w' r w'', layers = outer ++ layer :: inner ∧
          (passed around layers req w).map Passed.layer = outer ∧
          arrive around outer req w = (.ok next, w') ∧
          layer.enter around next w' = (.error r, w'') ∧
          ∀ inner' handler, stacked around (outer ++ layer :: inner') handler req w =
            leaveAll around (passed around layers req w) r w'')) ∧
    ∀ handler : Service σ, (∀ req, (handler req).Quiet) →
      (AllPass around layers req w →
        ∃ visit, (stacked around layers (observed handler) req w).2.journal.visits
          = w.journal.visits ++ [visit]) ∧
      (¬ AllPass around layers req w →
        (stacked around layers (observed handler) req w).2.journal.visits = w.journal.visits) := by
  have hvisits := visits_arrive around layers req w
  by_cases hall : AllPass around layers req w
  · obtain ⟨next, hnext⟩ := (allPass_iff around layers req w).mp hall
    rcases harrive : arrive around layers req w with ⟨answer, w'⟩
    rw [harrive] at hnext hvisits
    obtain rfl : answer = .ok next := hnext
    have hrun : ∀ handler, stacked around layers handler req w =
        (handler next >>= leaveAll around (passed around layers req w)) w' := fun handler ↦ by
      rw [stacked_apply, harrive]
    refine ⟨.inl ⟨hall, map_passed_of_allPass around hall, next, w', hrun⟩, fun handler hquiet ↦
      ⟨fun _ ↦ ⟨⟨next.user, next.context⟩, ?_⟩, fun h ↦ absurd hall h⟩⟩
    have hway := (hquiet next).bind (quiet_leaveAll around (passed around layers req w))
    rw [hrun, ← hvisits]
    refine (hway _).trans ?_
    exact List.filterMap_append
  · obtain ⟨outer, layer, inner, next, w', r, w'', hlayers, houter, harrive, hanswer, hsame⟩ :=
      exists_answer_of_not_allPass around hall
    have hpassed : passed around layers req w = passed around outer req w := by
      rw [hlayers, (hsame inner).2]
    have hrun : ∀ inner' handler, stacked around (outer ++ layer :: inner') handler req w =
        leaveAll around (passed around layers req w) r w'' := fun inner' handler ↦ by
      rw [stacked_apply, (hsame inner').1, (hsame inner').2, hpassed]
    refine ⟨.inr ⟨hall, outer, layer, inner, next, w', r, w'', hlayers, ?_, harrive, hanswer, hrun⟩,
      fun handler hquiet ↦ ⟨fun h ↦ absurd h hall, fun _ ↦ ?_⟩⟩
    · rw [hpassed, map_passed_of_allPass around houter]
    · rw [hlayers, (hsame inner).1] at hvisits
      rw [← hvisits]
      refine Eq.trans ?_ (quiet_leaveAll around (passed around layers req w) r w'')
      rw [← hrun inner (observed handler), ← hlayers]

/-- Of two gates in front of a cache, the one turns an anonymous client away and the other lets it
through to the handler. -/
theorem stacked_passage_anonymous :
    let around : Surroundings := ⟨fun _ _ ↦ .error .expired, fun id ↦ .error (.notFound id), id⟩
    let layers (gate : Gate) : List Layer :=
      [.securityHeaders, .auth gate "auth_token", .cache ⟨nanosPerSec, "cache:", 3⟩]
    let req : Request := ⟨.get, ⟨"/x", none⟩, [], none, none, none, none⟩
    let handler : Service MemoryStore := fun _ ↦ pure (.ofStatus .ok)
    let w : World MemoryStore := .start (.new 0) 0
    (∀ req, (handler req).Quiet) ∧ ¬ AllPass around (layers .required) req w ∧
      AllPass around (layers .optional) req w ∧
      (stacked around (layers .required) (observed handler) req w).2.journal.visits = [] ∧
      ∃ visit, (stacked around (layers .optional) (observed handler) req w).2.journal.visits
        = [visit] := by
  intro around layers req handler w
  have hquiet : ∀ req, (handler req).Quiet := fun _ ↦ Run.quiet_pure _
  have hrequired : ¬ AllPass around (layers .required) req w := by
    rintro ⟨-, h⟩
    obtain ⟨⟨u, hu⟩, -⟩ := h req w rfl
    cases hu
  have hoptional : AllPass around (layers .optional) req w := by
    refine ⟨trivial, fun next w' h ↦ ?_⟩
    cases h
    refine ⟨⟨none, rfl⟩, fun next w' h ↦ ?_⟩
    cases h
    exact ⟨fun _ ↦ rfl, fun _ _ _ ↦ trivial⟩
  exact ⟨hquiet, hrequired, hoptional,
    ((stacked_passage around (layers .required) req w).2 handler hquiet).2 hrequired,
    ((stacked_passage around (layers .optional) req w).2 handler hquiet).1 hoptional⟩

end Service

end Gatehouse
