import Gatehouse.Proofs.Token.Parts

/-!
# Which tokens are accepted

**`validate_sound`**: a token is accepted exactly if it is the text of a header and a payload with
the signature that the secret gives to these two, the header names the algorithm in use, the
payload makes the claims, they end neither before 1970 nor before now, and no particular audience
is meant. It is reported as expired exactly if all of this holds except that its time is over,
whatever the audience. Everything else is refused for another reason; in particular nothing that
was not signed is ever called expired.

That the digest keeps messages apart is not assumed: what is said about altered messages is said
about messages with different digests.
-/

namespace Gatehouse.Token

variable {secret token : String} {now : Instant} {c : Claims} {v : Json}

/-! ## Checks in sequence -/

section Checks

variable {α β : Type} {b : β} {d : Defect}

theorem bind_eq_ok_iff {x : Except Defect α} {f : α → Except Defect β} :
    x >>= f = .ok b ↔ ∃ a, x = .ok a ∧ f a = .ok b := by
  cases x <;> simp [bind, Except.bind]

theorem demand_eq_ok_iff {o : Option β} : demand d o = .ok b ↔ o = some b := by
  cases o <;> simp [demand]

/-- Behind a check comes only what has passed it. -/
theorem ite_throw_eq_ok_iff {p : Prop} [Decidable p] {f : α → Except Defect β}
    {x : Except Defect β} : (if p then throw d >>= f else x) = .ok b ↔ ¬ p ∧ x = .ok b := by
  split_ifs with hp
  · simp [hp, throw, throwThe, MonadExceptOf.throw, bind, Except.bind]
  · simp [hp]

end Checks

/-! ## Attested claims -/

/-- A token that makes claims and has the signature of a secret. The payload is kept, since it may
say more than the claims. -/
structure Attests (secret token : String) (payload : Json) (c : Claims) : Prop where
  /-- The two parts and their signature are the whole token. -/
  signed : ∃ header body : Bytes,
    token = sign secret (Base64.urlSafe.encode header ++ "." ++ Base64.urlSafe.encode body) ∧
      (Json.parse? header).bind headerAlgorithm? = some algorithm ∧
        Json.parse? body = some payload
  claims : Claims.ofJson? payload = some c
  customary : Claims.isCustomary payload = true

theorem signedClaims_eq_ok_iff :
    signedClaims secret token = .ok (c, v) ↔ Attests secret token v c := by
  simp only [signedClaims, bind_eq_ok_iff, ite_throw_eq_ok_iff, demand_eq_ok_iff, Prod.exists,
    split?_eq_some_iff, readPart_eq_ok_iff, pure, Except.pure, ne_eq, Decidable.not_not,
    Bool.not_eq_true', Bool.not_eq_false, Except.ok.injEq, Prod.mk.injEq]
  constructor
  · rintro ⟨_, _, sig, ⟨htoken, -, -⟩, h, ⟨header, rfl, hheader⟩, alg, halg, rfl, rfl, w,
      ⟨body, rfl, hbody⟩, c', hclaims, hcustomary, rfl, rfl⟩
    have hnamed : (Json.parse? header).bind headerAlgorithm? = some algorithm := by
      rw [hheader, Option.bind_some, halg]
    exact ⟨⟨header, body, htoken, hnamed, hbody⟩, hclaims, hcustomary⟩
  · rintro ⟨⟨header, body, htoken, hnamed, hbody⟩, hclaims, hcustomary⟩
    obtain ⟨h, hheader, halg⟩ := Option.bind_eq_some_iff.mp hnamed
    refine ⟨_, _, _, ⟨htoken, point_not_mem_encode body, point_not_mem_signature secret _⟩, h,
      ⟨header, rfl, hheader⟩, algorithm, halg, rfl, rfl, v, ⟨body, rfl, hbody⟩, c, hclaims,
      hcustomary, rfl, rfl⟩

/-! ## Validation -/

theorem validate_eq_ok_iff :
    validate secret now token = .ok c ↔
      ∃ v, Attests secret token v c ∧ 0 ≤ c.exp ∧ now.unixSecs ≤ c.exp ∧
        Claims.hasAudience v = false := by
  constructor
  · intro h
    rw [validate] at h
    split at h
    · cases h
    · rename_i c' v hsigned
      split_ifs at h with hneg hexpired haudience
      cases h
      exact ⟨v, signedClaims_eq_ok_iff.mp hsigned, Int.not_lt.mp hneg, Int.not_lt.mp hexpired,
        Bool.eq_false_iff.mpr haudience⟩
  · rintro ⟨v, hattests, hexp, hnow, haudience⟩
    rw [validate, signedClaims_eq_ok_iff.mpr hattests]
    simp only [if_neg (Int.not_lt.mpr hexp), if_neg (Int.not_lt.mpr hnow), haudience,
      Bool.false_eq_true, if_false]

theorem validate_eq_expired_iff :
    validate secret now token = .error .expired ↔
      ∃ v c, Attests secret token v c ∧ 0 ≤ c.exp ∧ c.exp < now.unixSecs := by
  constructor
  · intro h
    rw [validate] at h
    split at h
    · cases h
    · rename_i c v hsigned
      split_ifs at h with hneg hexpired haudience
      · cases h
      · exact ⟨v, c, signedClaims_eq_ok_iff.mp hsigned, Int.not_lt.mp hneg, hexpired⟩
      · cases h
  · rintro ⟨v, c, hattests, hexp, hnow⟩
    rw [validate, signedClaims_eq_ok_iff.mpr hattests]
    simp only [if_neg (Int.not_lt.mpr hexp), if_pos hnow]

/-! ## Refusals -/

/-- A token is refused, and not because its time is over. -/
def Refuses (secret : String) (now : Instant) (token : String) : Prop :=
  ∃ reason, validate secret now token = .error (.invalid reason)

/-- A token that is neither accepted nor expired is refused. -/
theorem refuses_of_forall (h : ∀ v c, Attests secret token v c → c.exp < 0) :
    Refuses secret now token := by
  cases hvalidate : validate secret now token with
  | ok c =>
    obtain ⟨v, hattests, hexp, -⟩ := validate_eq_ok_iff.mp hvalidate
    exact absurd (h v c hattests) (Int.not_lt.mpr hexp)
  | error e =>
    cases e with
    | expired =>
      obtain ⟨v, c, hattests, hexp, -⟩ := validate_eq_expired_iff.mp hvalidate
      exact absurd (h v c hattests) (Int.not_lt.mpr hexp)
    | invalid reason => exact ⟨reason, hvalidate⟩

theorem refuses_of_not_signed (h : ∀ message, token ≠ sign secret message) :
    Refuses secret now token := by
  refine refuses_of_forall fun v c hattests ↦ ?_
  obtain ⟨header, body, htoken, -, -⟩ := hattests.signed
  exact absurd htoken (h _)

/-- A token has one signature, whatever is signed. -/
theorem signature_eq_of_sign_eq {message sig : String} (hsig : '.' ∉ sig.toList)
    {message' : String} (h : message ++ "." ++ sig = sign secret message') :
    message = message' ∧ sig = signature secret message' := by
  have hleft : Text.cutLast? '.' (sign secret message') = some (message, sig) :=
    cutLast?_point_eq_some_iff.mpr ⟨h.symm, hsig⟩
  have hright : Text.cutLast? '.' (sign secret message')
      = some (message', signature secret message') :=
    cutLast?_point_eq_some_iff.mpr ⟨rfl, point_not_mem_signature secret message'⟩
  rw [hleft] at hright
  cases hright
  exact ⟨rfl, rfl⟩

/-- A signature is that of another message only if their digests agree. -/
theorem refuses_of_altered {message message' : String}
    (hdigest : Digest.hmacSha256 (utf8 secret) (utf8 message')
      ≠ Digest.hmacSha256 (utf8 secret) (utf8 message)) :
    Refuses secret now (message' ++ "." ++ signature secret message) := by
  refine refuses_of_not_signed fun other h ↦ hdigest ?_
  obtain ⟨rfl, hsig⟩ := signature_eq_of_sign_eq (point_not_mem_signature secret message) h
  exact ((Base64.Variant.encode_inj Base64.Variant.faithful_urlSafe).mp hsig).symm

/-- The parts that are attested are the parts of the token. -/
theorem Attests.parts {header body sig : String} (hattests : Attests secret token v c)
    (hsplit : split? token = some (header, body, sig)) :
    (∃ h, readPart header = .ok h ∧ NamesAlgorithm h algorithm) ∧
      readPart body = .ok v ∧ ExpiresAt v c.exp := by
  obtain ⟨hb, bb, htoken, hnamed, hbody⟩ := hattests.signed
  have hown : split? token = some (Base64.urlSafe.encode hb, Base64.urlSafe.encode bb, _) :=
    split?_eq_some_iff.mpr ⟨htoken, point_not_mem_encode bb, point_not_mem_signature secret _⟩
  rw [hown] at hsplit
  cases hsplit
  obtain ⟨h, hheader, halg⟩ := Option.bind_eq_some_iff.mp hnamed
  exact ⟨⟨h, readPart_eq_ok_iff.mpr ⟨hb, rfl, hheader⟩, namesAlgorithm_of_headerAlgorithm? halg⟩,
    readPart_eq_ok_iff.mpr ⟨bb, rfl, hbody⟩, expiresAt_of_ofJson? hattests.claims⟩

/-! ## Issued tokens -/

theorem headerAlgorithm?_header : headerAlgorithm? header = some algorithm := by
  have hrecord : header.record? headerFields
      = some [("typ", .ofText "JWT"), ("alg", .ofText algorithm)] := by
    rw [header, Json.record?_object]
    rfl
  have halg : nameAmong? signingAlgorithms isNull (.ofText algorithm) = some algorithm := by
    rw [nameAmong?, nameBy?_isNull_eq_some_iff.mpr (.inl (Json.text?_ofText algorithm))]
    rfl
  rw [headerAlgorithm?, ← headerFields, hrecord]
  simp [Json.Record.field?, halg]

/-- A token that is made for claims attests them. -/
theorem attests_make (hexp : -(maxSigned 64 : Int) - 1 ≤ c.exp ∧ c.exp ≤ maxSigned 64)
    (hiat : -(maxSigned 64 : Int) - 1 ≤ c.iat ∧ c.iat ≤ maxSigned 64) :
    Attests secret (make secret c) c.toJson c where
  signed := by
    refine ⟨header.print, c.toJson.print, rfl, ?_, c.toJson.parse?_print⟩
    rw [header.parse?_print, Option.bind_some, headerAlgorithm?_header]
  claims := Claims.ofJson?_toJson hexp hiat
  customary := by
    have hrecord : c.toJson.record? ["exp", "nbf", "sub", "iss", "aud"]
        = some [("sub", .ofText c.sub), ("exp", .int c.exp)] := by
      rw [Claims.toJson, Json.record?_object]
      rfl
    simp only [Claims.isCustomary, hrecord]
    rfl

theorem hasAudience_toJson (c : Claims) : Claims.hasAudience c.toJson = false := by
  have hrecord : c.toJson.record? ["aud"] = some [] := by
    rw [Claims.toJson, Json.record?_object]
    rfl
  rw [Claims.hasAudience, hrecord]
  rfl

/-! ## Soundness -/

/-- **Only what is signed is believed**, and only for its time. -/
theorem validate_sound (secret token : String) (now : Instant) :
    (∀ c, validate secret now token = .ok c ↔
      ∃ v, Attests secret token v c ∧ 0 ≤ c.exp ∧ now.unixSecs ≤ c.exp ∧
        Claims.hasAudience v = false) ∧
    (validate secret now token = .error .expired ↔
      ∃ v c, Attests secret token v c ∧ 0 ≤ c.exp ∧ c.exp < now.unixSecs) ∧
    ((∀ message, token ≠ sign secret message) → Refuses secret now token) ∧
    (∀ message message', token = message' ++ "." ++ signature secret message →
      Digest.hmacSha256 (utf8 secret) (utf8 message')
        ≠ Digest.hmacSha256 (utf8 secret) (utf8 message) → Refuses secret now token) ∧
    (∀ header body sig, split? token = some (header, body, sig) →
      ((∀ h, readPart header = .ok h → ¬ NamesAlgorithm h algorithm) →
        Refuses secret now token) ∧
      ((∀ v n, readPart body = .ok v → ExpiresAt v n → n < 0) → Refuses secret now token)) := by
  refine ⟨fun c ↦ validate_eq_ok_iff, validate_eq_expired_iff, refuses_of_not_signed, ?_, ?_⟩
  · rintro message message' rfl hdigest
    exact refuses_of_altered hdigest
  · intro header body sig hsplit
    refine ⟨fun hnames ↦ refuses_of_forall fun v c hattests ↦ ?_,
      fun hexpiry ↦ refuses_of_forall fun v c hattests ↦ ?_⟩
    · obtain ⟨⟨h, hheader, hnamed⟩, -, -⟩ := hattests.parts hsplit
      exact absurd hnamed (hnames h hheader)
    · obtain ⟨-, hbody, hexp⟩ := hattests.parts hsplit
      exact hexpiry v c.exp hbody hexp

theorem validate_sound_make :
    let token := make "key" ⟨"bob", 60, 0⟩
    validate "key" (Instant.ofMillis 60000) token = .ok ⟨"bob", 60, 0⟩ ∧
      validate "key" (Instant.ofMillis 61000) token = .error .expired := by
  intro token
  have hattests : Attests "key" token (Claims.toJson ⟨"bob", 60, 0⟩) ⟨"bob", 60, 0⟩ :=
    attests_make (by decide) (by decide)
  have haudience := hasAudience_toJson ⟨"bob", 60, 0⟩
  exact ⟨((validate_sound "key" token _).1 _).mpr
      ⟨_, hattests, by decide, by decide, haudience⟩,
    (validate_sound "key" token _).2.1.mpr ⟨_, _, hattests, by decide, by decide⟩⟩

end Gatehouse.Token
