import Gatehouse.Proofs.Layer.Passage

/-!
# Three gates and one question

All gates ask whose token is in the cookie, and what they find out does not depend on the gate:
`Headers.Identifies` lists the ways in which the question can end. A gate differs from the others
only in what it makes of the outcome, and **`Service.gated_gatesAgree`** says what that is. The
required gate lets users through and nobody else. The admin gate answers as the required gate does,
except to users who are no administrators. The optional gate lets everybody through.

A gate that lets a request through has no part in the response, and one that turns it away does not
call what is behind it. Both are equations between runs with an arbitrary service behind the gate,
so that "once" and "never" need no counting; what a handler sees is then read off the journal.
-/

namespace Gatehouse

/-! ## The question -/

namespace Headers

/-- The header fields bring no token: there is no such cookie, or it is empty. -/
def BringsNone (h : Headers) (cookie : String) : Prop :=
  h.cookie? cookie = none ∨ h.cookie? cookie = some ""

instance (h : Headers) (cookie : String) : Decidable (h.BringsNone cookie) :=
  inferInstanceAs (Decidable (_ ∨ _))

/-- The header fields bring a token. -/
def Brings (h : Headers) (cookie token : String) : Prop :=
  h.cookie? cookie = some token ∧ token ≠ ""

/-- How the question whose token is in a cookie ends. -/
inductive Identifies (h : Headers) (around : Surroundings) (cookie : String) (now : Instant) :
    Except Failure User → Prop where
  | missing (hnone : h.BringsNone cookie) :
      Identifies h around cookie now (.error .missingCredential)
  /-- The token has expired or is invalid. -/
  | refused {token : String} {e : TokenError} (hbrings : h.Brings cookie token)
      (hvalidate : around.validate now token = .error e) :
      Identifies h around cookie now (.error e.failure)
  /-- The token is valid, but its user cannot be looked up. -/
  | unresolved {token : String} {claims : Claims} {e : LookupError}
      (hbrings : h.Brings cookie token) (hvalidate : around.validate now token = .ok claims)
      (hfind : around.findUser claims.sub = .error e) :
      Identifies h around cookie now (.error e.failure)
  | known {token : String} {claims : Claims} {u : User} (hbrings : h.Brings cookie token)
      (hvalidate : around.validate now token = .ok claims)
      (hfind : around.findUser claims.sub = .ok u) : Identifies h around cookie now (.ok u)

variable {h : Headers} {around : Surroundings} {cookie : String} {now : Instant}

theorem not_bringsNone_of_brings {token : String} (hbrings : h.Brings cookie token) :
    ¬ h.BringsNone cookie := by
  rintro (hnone | hempty)
  · rw [hbrings.1] at hnone
    cases hnone
  · rw [hbrings.1] at hempty
    exact hbrings.2 (Option.some.inj hempty)

theorem identifies_authenticate (h : Headers) (around : Surroundings) (cookie : String)
    (now : Instant) : h.Identifies around cookie now (h.authenticate around cookie now) := by
  rcases hcookie : h.cookie? cookie with _ | token
  · have hmissing : h.authenticate around cookie now = .error .missingCredential := by
      rw [authenticate, hcookie]
      rfl
    exact hmissing ▸ .missing (.inl hcookie)
  · by_cases hempty : token = ""
    · subst hempty
      have hmissing : h.authenticate around cookie now = .error .missingCredential := by
        rw [authenticate, hcookie]
        rfl
      exact hmissing ▸ .missing (.inr hcookie)
    · have htoken : (h.cookie? cookie).filter (fun v ↦ !v.isEmpty) = some token := by
        rw [hcookie, Option.filter_some_pos]
        simpa using hempty
      have hasked : h.authenticate around cookie now
          = ((around.validate now token).mapError TokenError.failure).bind fun claims ↦
            (around.findUser claims.sub).mapError LookupError.failure := by
        rw [authenticate, htoken]
        rfl
      rw [hasked]
      rcases hvalidate : around.validate now token with e | claims
      · exact .refused ⟨hcookie, hempty⟩ hvalidate
      · rcases hfind : around.findUser claims.sub with e | u
        · simpa only [Except.mapError, Except.bind, hfind] using
            Identifies.unresolved ⟨hcookie, hempty⟩ hvalidate hfind
        · simpa only [Except.mapError, Except.bind, hfind] using
            Identifies.known ⟨hcookie, hempty⟩ hvalidate hfind

theorem Identifies.isMissing_iff {f : Failure} (hi : h.Identifies around cookie now (.error f)) :
    Gate.isMissing f = true ↔ h.BringsNone cookie := by
  cases hi with
  | missing hnone => exact iff_of_true rfl hnone
  | refused hbrings hvalidate =>
    rename_i e
    refine iff_of_false ?_ (not_bringsNone_of_brings hbrings)
    cases e <;> simp [Gate.isMissing, TokenError.failure, Failure.code, Failure.missingCredential]
  | unresolved hbrings hvalidate hfind =>
    rename_i e
    refine iff_of_false ?_ (not_bringsNone_of_brings hbrings)
    cases e <;> simp [Gate.isMissing, LookupError.failure, Failure.code, Failure.missingCredential]

theorem Brings.unique {token token' : String} (h₁ : h.Brings cookie token)
    (h₂ : h.Brings cookie token') : token = token' :=
  Option.some.inj (h₁.1.symm.trans h₂.1)

theorem Identifies.status_eq_unauthorized {f : Failure}
    (hi : h.Identifies around cookie now (.error f))
    (hinvalid : h.BringsNone cookie ∨
      ∃ token e, h.Brings cookie token ∧ around.validate now token = .error e) :
    f.status = .unauthorized := by
  cases hi with
  | missing hnone => rfl
  | @refused _ e _ _ => cases e <;> rfl
  | unresolved hbrings hvalidate hfind =>
    rcases hinvalid with hnone | ⟨token, e, hbrings', herror⟩
    · exact absurd hnone (not_bringsNone_of_brings hbrings)
    · rw [← hbrings.unique hbrings', hvalidate] at herror
      cases herror

theorem Identifies.status_eq_internalError {f : Failure}
    (hi : h.Identifies around cookie now (.error f)) {token : String} {claims : Claims}
    (hbrings : h.Brings cookie token) (hvalidate : around.validate now token = .ok claims) :
    f.status = .internalError := by
  cases hi with
  | missing hnone => exact absurd hnone (not_bringsNone_of_brings hbrings)
  | refused hbrings' herror =>
    rw [← hbrings.unique hbrings', hvalidate] at herror
    cases herror
  | @unresolved _ _ e _ _ _ => cases e <;> rfl

end Headers

/-! ## The gates -/

namespace Gate

variable {σ : Type}

/-- A request was turned away with a failure: the response tells the failure, and one failure of
authentication is counted, with the gate and the code. -/
def turnedAway (gate : Gate) (f : Failure) (req : Request) (w : World σ) : Response × World σ :=
  (.ofFailure f,
    { w with
      journal := w.journal ++ [.metric (.authFailure gate f.code),
        .event (.rejected gate.operation f (Context.of req))] })

/-- A request was let through without an identity although it brought a token: the failure is
counted and logged. -/
def tolerated (f : Failure) (w : World σ) : World σ :=
  { w with
    journal := w.journal ++ [.metric (.authFailure .optional f.code), .event (.anonymous f)] }

/-- What the handler behind a gate is called with, if it is called. -/
def visit? (gate : Gate) (req : Request) (who : Except Failure User) : Option Visit :=
  match gate, who with
  | .required, .ok u => some ⟨some u, req.context⟩
  | .required, .error _ => none
  | .admin, .ok u => if u.role = "admin" then some ⟨some u, req.context⟩ else none
  | .admin, .error _ => none
  | .optional, .ok u => some ⟨some u, req.context⟩
  | .optional, .error _ => some ⟨req.user, req.context⟩

end Gate

namespace Service

variable {σ : Type} {around : Surroundings} {cookie : String} {req : Request} {w : World σ}

/-- A gate that lets a request through without complaint has no part in what follows. -/
theorem gated_of_letThrough {gate : Gate} {who : Except Failure User} {user : Option User}
    (hwho : req.headers.authenticate around cookie w.now = who)
    (htolerated : gate.tolerated? who = none) (hlet : gate.letThrough who = .ok user)
    (next : Service σ) : gated around gate cookie next req w
      = next { req with user := user.or req.user } w := by
  simp only [gated, bind, StateT.bind, Run.now, hwho, htolerated, hlet]
  cases user <;> rfl

/-- A gate that turns a request away does not call what is behind it. -/
theorem gated_of_refused (gate : Gate) {who : Except Failure User} {f : Failure}
    (hwho : req.headers.authenticate around cookie w.now = who)
    (htolerated : gate.tolerated? who = none) (hlet : gate.letThrough who = .error f)
    (next : Service σ) : gated around gate cookie next req w = gate.turnedAway f req w := by
  simp only [gated, bind, StateT.bind, Run.now, hwho, htolerated, hlet]
  simp [Gate.turnedAway, reject, Run.count, Run.log, Run.note, bind, StateT.bind]
  rfl

theorem gated_of_tolerated {who : Except Failure User} {f : Failure}
    (hwho : req.headers.authenticate around cookie w.now = who)
    (htolerated : Gate.optional.tolerated? who = some f)
    (hlet : Gate.optional.letThrough who = .ok none) (next : Service σ) :
    gated around .optional cookie next req w = next req (Gate.tolerated f w) := by
  simp only [gated, bind, StateT.bind, Run.now, hwho, htolerated, hlet]
  simp [Gate.tolerated, Run.count, Run.log, Run.note]

/-- The optional gate lets a request through although it could not be authenticated. -/
theorem gated_optional_of_error {f : Failure}
    (hwho : req.headers.authenticate around cookie w.now = .error f) (next : Service σ) :
    gated around .optional cookie next req w
      = next req (if req.headers.BringsNone cookie then w else Gate.tolerated f w) := by
  have hidentifies := req.headers.identifies_authenticate around cookie w.now
  rw [hwho] at hidentifies
  by_cases hnone : req.headers.BringsNone cookie
  · rw [if_pos hnone]
    have htolerated : Gate.optional.tolerated? (.error f) = none :=
      if_pos (hidentifies.isMissing_iff.mpr hnone)
    have hlet : Gate.optional.letThrough (.error f) = .ok none := rfl
    exact gated_of_letThrough hwho htolerated hlet next
  · rw [if_neg hnone]
    have htolerated : Gate.optional.tolerated? (.error f) = some f :=
      if_neg ((not_congr hidentifies.isMissing_iff).mpr hnone)
    exact gated_of_tolerated hwho htolerated rfl next

/-- Users whom a gate lets through are known behind it. -/
theorem gated_of_ok {gate : Gate} {u : User}
    (hwho : req.headers.authenticate around cookie w.now = .ok u)
    (hlet : gate.letThrough (.ok u) = .ok (some u)) (next : Service σ) :
    gated around gate cookie next req w = next { req with user := some u } w :=
  gated_of_letThrough hwho (by cases gate <;> rfl) hlet next

theorem gated_admin_of_ok {u : User}
    (hwho : req.headers.authenticate around cookie w.now = .ok u) (next : Service σ) :
    gated around .admin cookie next req w =
      if u.role = "admin" then next { req with user := some u } w
      else Gate.admin.turnedAway (.forbidden "Administrator role required") req w := by
  by_cases hrole : u.role = "admin"
  · rw [if_pos hrole]
    have hlet : Gate.admin.letThrough (.ok u) = .ok (some u) := if_pos (beq_iff_eq.mpr hrole)
    exact gated_of_ok hwho hlet next
  · rw [if_neg hrole]
    exact gated_of_refused .admin hwho rfl (if_neg (mt beq_iff_eq.mp hrole)) next

/-! ### Visits -/

/-- What a gate turns away no handler sees. -/
theorem visits_turnedAway (gate : Gate) (f : Failure) (req : Request) (w : World σ) :
    (gate.turnedAway f req w).2.journal.visits = w.journal.visits :=
  List.filterMap_append.trans (List.append_nil _)

theorem visits_tolerated (f : Failure) (w : World σ) :
    (Gate.tolerated f w).journal.visits = w.journal.visits :=
  List.filterMap_append.trans (List.append_nil _)

/-- The handler behind a gate is called at most once, as the user that was found. -/
theorem visits_gated (gate : Gate) {handler : Service σ} (hquiet : ∀ req, (handler req).Quiet) :
    (gated around gate cookie (observed handler) req w).2.journal.visits = w.journal.visits
      ++ (gate.visit? req (req.headers.authenticate around cookie w.now)).toList := by
  rcases hwho : req.headers.authenticate around cookie w.now with f | u
  · cases gate with
    | required | admin =>
      rw [gated_of_refused _ hwho rfl rfl, visits_turnedAway]
      exact (List.append_nil _).symm
    | optional =>
      rw [gated_optional_of_error hwho, visits_observed (hquiet req)]
      split
      · rfl
      · rw [visits_tolerated]
        rfl
  · have hvisit := visits_observed (hquiet { req with user := some u }) w
    cases gate with
    | required | optional =>
      rw [gated_of_ok hwho rfl, hvisit]
      rfl
    | admin =>
      rw [gated_admin_of_ok hwho, Gate.visit?]
      split_ifs
      · rw [hvisit]
        rfl
      · rw [visits_turnedAway]
        exact (List.append_nil _).symm

/-! ### Agreement -/

/-- What the three gates make of one outcome. -/
structure GatesAgree (around : Surroundings) (cookie : String) (req : Request) (w : World σ)
    (who : Except Failure User) : Prop where
  identifies : req.headers.Identifies around cookie w.now who
  /-- Without a token, and with one that is not accepted, authentication fails with 401. -/
  unauthorized : ∀ f, who = .error f →
    (req.headers.BringsNone cookie ∨ ∃ token e, req.headers.Brings cookie token ∧
      around.validate w.now token = .error e) → (Response.ofFailure f).status = .unauthorized
  /-- However looking up the user fails, authentication fails with 500. -/
  internalError : ∀ f, who = .error f → ∀ token claims e, req.headers.Brings cookie token →
    around.validate w.now token = .ok claims → around.findUser claims.sub = .error e →
      (Response.ofFailure f).status = .internalError
  /-- The required gate lets users through, and is not noticed any more. -/
  required : ∀ next : Service σ, gated around .required cookie next req w =
    match who with
    | .ok u => next { req with user := some u } w
    | .error f => Gate.required.turnedAway f req w
  /-- The admin gate does the same for administrators, and has a refusal for all other users. -/
  admin : ∃ refusal : Failure, (Response.ofFailure refusal).status = .forbidden ∧
    ∀ next : Service σ, gated around .admin cookie next req w =
      match who with
      | .ok u =>
        if u.role = "admin" then next { req with user := some u } w
        else Gate.admin.turnedAway refusal req w
      | .error f => Gate.admin.turnedAway f req w
  /-- But for users who are no administrators the admin gate gives the response of the required one,
  and lets the same requests through as the same users. -/
  admin_eq_required : (∀ u, who = .ok u → u.role = "admin") →
    (∀ next : Service σ, (gated around .admin cookie next req w).1
      = (gated around .required cookie next req w).1) ∧
    Gate.admin.visit? req who = Gate.required.visit? req who
  /-- The optional gate lets every request through. A failure is counted unless no token was
  brought. -/
  optional : ∀ next : Service σ, gated around .optional cookie next req w =
    match who with
    | .ok u => next { req with user := some u } w
    | .error f => next req (if req.headers.BringsNone cookie then w else Gate.tolerated f w)
  /-- A handler is called at most once, as the user that was found. -/
  visits : ∀ gate, ∀ handler : Service σ, (∀ req, (handler req).Quiet) →
    (gated around gate cookie (observed handler) req w).2.journal.visits
      = w.journal.visits ++ (gate.visit? req who).toList

theorem gatesAgree_of_error {f : Failure}
    (hwho : req.headers.authenticate around cookie w.now = .error f) :
    GatesAgree around cookie req w (.error f) := by
  have hidentifies := req.headers.identifies_authenticate around cookie w.now
  rw [hwho] at hidentifies
  have hrequired := gated_of_refused .required hwho rfl rfl
  have hadmin := gated_of_refused .admin hwho rfl rfl
  constructor
  case identifies => exact hidentifies
  case unauthorized =>
    rintro _ ⟨⟩ hinvalid
    exact hidentifies.status_eq_unauthorized hinvalid
  case internalError =>
    rintro _ ⟨⟩ token claims e hbrings hvalidate -
    exact hidentifies.status_eq_internalError hbrings hvalidate
  case required => exact hrequired
  case admin => exact ⟨.forbidden "Administrator role required", rfl, hadmin⟩
  case admin_eq_required =>
    intro _
    exact ⟨fun next ↦ by rw [hadmin, hrequired]; rfl, rfl⟩
  case optional => exact gated_optional_of_error hwho
  case visits =>
    intro gate handler hquiet
    exact hwho ▸ visits_gated gate hquiet

theorem gatesAgree_of_ok {u : User}
    (hwho : req.headers.authenticate around cookie w.now = .ok u) :
    GatesAgree around cookie req w (.ok u) := by
  have hidentifies := req.headers.identifies_authenticate around cookie w.now
  rw [hwho] at hidentifies
  have hrequired (next : Service σ) : gated around .required cookie next req w
      = next { req with user := some u } w := gated_of_ok hwho rfl next
  constructor
  case identifies => exact hidentifies
  case unauthorized => exact fun _ h ↦ nomatch h
  case internalError => exact fun _ h ↦ nomatch h
  case required => exact hrequired
  case admin => exact ⟨_, rfl, gated_admin_of_ok hwho⟩
  case admin_eq_required =>
    intro hrole
    have hadministrator : u.role = "admin" := hrole u rfl
    refine ⟨fun next ↦ ?_, if_pos hadministrator⟩
    rw [gated_admin_of_ok hwho, if_pos hadministrator, hrequired]
  case optional => exact gated_of_ok hwho rfl
  case visits =>
    intro gate handler hquiet
    exact hwho ▸ visits_gated gate hquiet

/-- **The gates agree on who is asking.** Whatever the cookies are, and however the token is
validated and the user looked up, the three gates ask the same question, and each makes of its
outcome what it promises. -/
theorem gated_gatesAgree (around : Surroundings) (cookie : String) (req : Request) (w : World σ) :
    GatesAgree around cookie req w (req.headers.authenticate around cookie w.now) := by
  cases hwho : req.headers.authenticate around cookie w.now with
  | error f => exact gatesAgree_of_error hwho
  | ok u => exact gatesAgree_of_ok hwho

end Service

end Gatehouse
