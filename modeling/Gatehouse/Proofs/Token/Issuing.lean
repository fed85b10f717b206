import Gatehouse.Proofs.Token.Soundness

/-!
# What becomes of an issued token

**`validate_issue`**: a token that was issued is accepted with the secret it was issued with, and
means the subject, the second of its issue and its last second, up to and with this last second;
from the next second on it is expired. With a secret that gives its message another digest it is
refused for its signature, at any time.

The subject may be any text, since a text is read back from its JSON form whatever it holds, and
the parts of a token hold no points. The last second is a sum that has to fit a signed word.
-/

namespace Gatehouse.Token

/-- What is signed of a token that makes the given claims. -/
def message (c : Claims) : String := part header ++ "." ++ part c.toJson

/-! ## Issued claims -/

section

variable {subject : String} {now : Instant} {ttl : Duration}

theorem wrapSigned_of_le_maxSecs {n : Nat} (h : n ≤ maxSecs) : wrapSigned 64 n = n := by
  have hmax : 2 * maxSecs < wordSize 64 := by decide
  exact wrapSigned_of_fits (by omega) (by omega)

theorem issuedClaims_eq (hfits : now.unixSecs + ttl.wholeSecs ≤ maxSecs) :
    issuedClaims subject now ttl = ⟨subject, now.unixSecs + ttl.wholeSecs, now.unixSecs⟩ := by
  have hlifetime : lifetime ttl = ttl.wholeSecs := if_pos (Nat.le_of_add_left_le hfits)
  have hexp : wrapSigned 64 (now.unixSecs + lifetime ttl) = now.unixSecs + ttl.wholeSecs := by
    rw [hlifetime]
    exact wrapSigned_of_le_maxSecs hfits
  rw [issuedClaims, hexp]

/-- An issued token attests its claims. -/
theorem attests_issue (subject secret : String) (hfits : now.unixSecs + ttl.wholeSecs ≤ maxSecs) :
    Attests secret (issue subject secret now ttl)
      (Claims.toJson ⟨subject, now.unixSecs + ttl.wholeSecs, now.unixSecs⟩)
      ⟨subject, now.unixSecs + ttl.wholeSecs, now.unixSecs⟩ := by
  have hmax : (maxSigned 64 : Int) = maxSecs := rfl
  rw [issue, issuedClaims_eq hfits]
  apply attests_make <;> simp only [hmax] <;> omega

end

/-! ## Another secret -/

/-- A token that makes claims is cut into its header, its claims and its signature. -/
theorem split?_make (secret : String) (c : Claims) :
    split? (make secret c) = some (part header, part c.toJson, signature secret (message c)) :=
  split?_eq_some_iff.mpr ⟨rfl, point_not_mem_encode _, point_not_mem_signature secret _⟩

theorem readPart_part (v : Json) : readPart (part v) = .ok v :=
  readPart_eq_ok_iff.mpr ⟨v.print, rfl, v.parse?_print⟩

/-- The signature is checked before the claims are read. -/
theorem signedClaims_make_of_ne {secret other : String} {c : Claims}
    (hother : signature secret (message c) ≠ signature other (message c)) :
    signedClaims other (make secret c) = .error .signature := by
  have hmessage : part header ++ "." ++ part c.toJson = message c := rfl
  simp only [signedClaims, split?_make, readPart_part, headerAlgorithm?_header, demand, bind,
    Except.bind, hmessage]
  rw [if_neg (not_not_intro rfl), if_pos hother]
  rfl

/-- Digests that differ make signatures that differ. -/
theorem signature_ne {secret other text : String}
    (hdigest : Digest.hmacSha256 (utf8 other) (utf8 text)
      ≠ Digest.hmacSha256 (utf8 secret) (utf8 text)) :
    signature secret text ≠ signature other text := fun heq ↦
  hdigest ((Base64.Variant.encode_inj Base64.Variant.faithful_urlSafe).mp heq).symm

/-! ## Validation of issued tokens -/

/-- **Validation undoes issuing**, with the right secret and for the time of the token. -/
theorem validate_issue (subject secret : String) (now : Instant) (ttl : Duration) :
    (now.unixSecs + ttl.wholeSecs ≤ maxSecs → ∀ later : Instant,
      (later.unixSecs ≤ now.unixSecs + ttl.wholeSecs →
        validate secret later (issue subject secret now ttl)
          = .ok ⟨subject, now.unixSecs + ttl.wholeSecs, now.unixSecs⟩) ∧
      (now.unixSecs + ttl.wholeSecs < later.unixSecs →
        validate secret later (issue subject secret now ttl) = .error .expired)) ∧
    ∀ other : String,
      Digest.hmacSha256 (utf8 other) (utf8 (message (issuedClaims subject now ttl)))
        ≠ Digest.hmacSha256 (utf8 secret) (utf8 (message (issuedClaims subject now ttl))) →
      ∀ later : Instant, validate other later (issue subject secret now ttl)
        = .error (.invalid "InvalidSignature") := by
  constructor
  · intro hfits later
    have hattests := attests_issue subject secret hfits
    refine ⟨fun hle ↦ ?_, fun hlt ↦ ?_⟩
    · refine validate_eq_ok_iff.mpr ⟨_, hattests, ?_, ?_, hasAudience_toJson _⟩
      · exact Int.natCast_nonneg (now.unixSecs + ttl.wholeSecs)
      · exact Int.ofNat_le.mpr hle
    · refine validate_eq_expired_iff.mpr ⟨_, _, hattests, ?_, ?_⟩
      · exact Int.natCast_nonneg (now.unixSecs + ttl.wholeSecs)
      · exact Int.ofNat_lt.mpr hlt
  · intro other hdigest later
    rw [validate, issue, signedClaims_make_of_ne (signature_ne hdigest)]
    rfl

/-- A token for a minute and a half second, issued in the middle of a second to somebody whose name
has a quote and a point. -/
theorem validate_issue_minute :
    let token := issue "b\"o.b" "key" (Instant.ofMillis 1500) (Duration.ofMillis 60500)
    validate "key" (Instant.ofMillis 61999) token = .ok ⟨"b\"o.b", 61, 1⟩ ∧
      validate "key" (Instant.ofMillis 62000) token = .error .expired ∧
      validate "kez" (Instant.ofMillis 0) token = .error (.invalid "InvalidSignature") := by
  intro token
  obtain ⟨htime, hother⟩ :=
    validate_issue "b\"o.b" "key" (Instant.ofMillis 1500) (Duration.ofMillis 60500)
  exact ⟨(htime (by decide) _).1 (by decide), (htime (by decide) _).2 (by decide),
    hother "kez" (by decide +kernel) _⟩

end Gatehouse.Token
