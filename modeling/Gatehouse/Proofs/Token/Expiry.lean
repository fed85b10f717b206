import Gatehouse.Proofs.Token.Issuing

/-!
# The last second of an issued token

The last second of a token is a sum of two numbers of seconds, and it is written as a signed word.
A time that is too long for such a word counts as half of the longest, so that there is room for the
present. A time that just fits is taken as it is, and then there may be no room: the sum starts
again from below, and the token that was meant to live longest is never accepted.

**`dates_issuedClaims`** says exactly which times are lost in this way. All others are dated within
the range of the word, and to the second wherever the sum fits. `exp_issuedClaims_lt_iat` is the
longest time that fits a word, lost in the year 2023, and the one that is a second longer.

There are three regions: sums that fit, times that are lost, and times that are too long to be
numbers of seconds. Every statement is read off the last second in each of them.
-/

namespace Gatehouse.Token

/-- A time is lost: it fits a signed word, but the second at which it is over does not. -/
def IsLost (now : Instant) (ttl : Duration) : Prop :=
  ttl.wholeSecs ≤ maxSecs ∧ maxSecs < now.unixSecs + ttl.wholeSecs

section

variable {subject secret : String} {now later : Instant} {ttl longer : Duration}

/-! ## The three regions -/

theorem exp_of_fits (h : now.unixSecs + ttl.wholeSecs ≤ maxSecs) :
    (issuedClaims subject now ttl).exp = (now.unixSecs + ttl.wholeSecs : Nat) := by
  rw [issuedClaims_eq h]
  rfl

/-- The sum of a time that is lost starts again from below. -/
theorem exp_of_isLost (hnow : now.unixSecs ≤ maxSecs / 2) (h : IsLost now ttl) :
    (issuedClaims subject now ttl).exp = now.unixSecs + ttl.wholeSecs - wordSize 64 := by
  have hmax : maxSecs = 9223372036854775807 := by decide
  have hsize : wordSize 64 = 18446744073709551616 := by decide
  obtain ⟨hword, hsum⟩ := h
  have hwrap : wrapSigned 64 ((now.unixSecs : Int) + ttl.wholeSecs)
      = wrapSigned 64 ((now.unixSecs : Int) + ttl.wholeSecs - wordSize 64) := by
    rw [wrapSigned, wrapSigned, Int.sub_bmod_right]
  rw [issuedClaims, lifetime, if_pos hword, hwrap]
  exact wrapSigned_of_fits (by omega) (by omega)

/-- A time that is too long for a number of seconds counts as half of the longest. -/
theorem exp_of_long (hnow : now.unixSecs ≤ maxSecs / 2) (h : maxSecs < ttl.wholeSecs) :
    (issuedClaims subject now ttl).exp = (now.unixSecs + maxSecs / 2 : Nat) := by
  have hfits : now.unixSecs + maxSecs / 2 ≤ maxSecs := by omega
  have hlifetime : lifetime ttl = maxSecs / 2 := if_neg (Nat.not_le.mpr h)
  rw [issuedClaims, hlifetime, ← Int.natCast_add, wrapSigned_of_le_maxSecs hfits]

theorem regions (now : Instant) (ttl : Duration) :
    now.unixSecs + ttl.wholeSecs ≤ maxSecs ∨ IsLost now ttl ∨ maxSecs < ttl.wholeSecs := by
  rw [IsLost]
  omega

/-! ## Bounds -/

theorem exp_neg_iff (hnow : now.unixSecs ≤ maxSecs / 2) :
    (issuedClaims subject now ttl).exp < 0 ↔ IsLost now ttl := by
  have hmax : maxSecs = 9223372036854775807 := by decide
  have hsize : wordSize 64 = 18446744073709551616 := by decide
  rcases regions now ttl with h | h | h
  · rw [exp_of_fits h, IsLost]
    omega
  · rw [exp_of_isLost hnow h]
    obtain ⟨hword, hsum⟩ := id h
    exact iff_of_true (by omega) h
  · rw [exp_of_long hnow h, IsLost]
    omega

/-- The last second is always that of a signed word. -/
theorem exp_mem_word (hnow : now.unixSecs ≤ maxSecs / 2) :
    -(maxSigned 64 : Int) - 1 ≤ (issuedClaims subject now ttl).exp ∧
      (issuedClaims subject now ttl).exp ≤ maxSigned 64 := by
  have hmax : maxSecs = 9223372036854775807 := by decide
  have hsize : wordSize 64 = 18446744073709551616 := by decide
  have hsigned : maxSigned 64 = maxSecs := rfl
  rw [hsigned]
  rcases regions now ttl with h | h | h
  · rw [exp_of_fits h]
    omega
  · rw [exp_of_isLost hnow h]
    obtain ⟨hword, hsum⟩ := h
    omega
  · rw [exp_of_long hnow h]
    omega

theorem unixSecs_le_exp_iff (hnow : now.unixSecs ≤ maxSecs / 2) :
    now.unixSecs ≤ (issuedClaims subject now ttl).exp ↔ ¬ IsLost now ttl := by
  rcases regions now ttl with h | h | h
  · rw [exp_of_fits h, IsLost]
    omega
  · have hneg : (issuedClaims subject now ttl).exp < 0 := (exp_neg_iff hnow).mpr h
    exact iff_of_false (by omega) (not_not_intro h)
  · rw [exp_of_long hnow h, IsLost]
    omega

/-- Of two times, the longer one is over earlier only if it is lost and the other is not, or if it
is too long and the other is more than half of the longest. -/
theorem exp_lt_exp_iff (hnow : now.unixSecs ≤ maxSecs / 2) (hle : ttl ≤ longer) :
    (issuedClaims subject now longer).exp < (issuedClaims subject now ttl).exp ↔
      now.unixSecs + ttl.wholeSecs ≤ maxSecs ∧
        (IsLost now longer ∨ maxSecs < longer.wholeSecs ∧ maxSecs / 2 < ttl.wholeSecs) := by
  have hsecs : ttl.wholeSecs ≤ longer.wholeSecs := Nat.div_le_div_right hle
  have hneg : (issuedClaims subject now longer).exp < 0 ↔ IsLost now longer := exp_neg_iff hnow
  rcases regions now ttl with h | h | h
  · rw [exp_of_fits h]
    rcases regions now longer with h' | h' | h'
    · rw [exp_of_fits h', IsLost]
      omega
    · exact iff_of_true (Int.lt_of_lt_of_le (hneg.mpr h') (Int.natCast_nonneg _)) ⟨h, .inl h'⟩
    · rw [exp_of_long hnow h', IsLost]
      omega
  · have hlost : (issuedClaims subject now ttl).exp < 0 := (exp_neg_iff hnow).mpr h
    refine iff_of_false ?_ fun hfits ↦ absurd h.2 (Nat.not_lt.mpr hfits.1)
    rcases regions now longer with h' | h' | h'
    · rw [exp_of_fits h']
      omega
    · rw [exp_of_isLost hnow h, exp_of_isLost hnow h']
      omega
    · rw [exp_of_long hnow h']
      omega
  · have h' : maxSecs < longer.wholeSecs := Nat.lt_of_lt_of_le h hsecs
    rw [exp_of_long hnow h, exp_of_long hnow h']
    omega

/-! ## Validation -/

theorem attests_issue_of_le (subject secret : String) (ttl : Duration)
    (hnow : now.unixSecs ≤ maxSecs / 2) :
    Attests secret (issue subject secret now ttl) (issuedClaims subject now ttl).toJson
      (issuedClaims subject now ttl) := by
  have hmax : maxSigned 64 = maxSecs := rfl
  have hiat : (issuedClaims subject now ttl).iat = now.unixSecs := rfl
  refine attests_make (exp_mem_word hnow) ?_
  rw [hiat, hmax]
  omega

/-- A token whose time is lost is refused for having no last second, at any time. -/
theorem validate_issue_of_isLost (subject secret : String) (hnow : now.unixSecs ≤ maxSecs / 2)
    (h : IsLost now ttl) (later : Instant) :
    validate secret later (issue subject secret now ttl)
      = .error (.invalid "Missing required claim: exp") := by
  have hattests := attests_issue_of_le subject secret ttl hnow
  rw [validate, signedClaims_eq_ok_iff.mpr hattests]
  exact if_pos ((exp_neg_iff hnow).mpr h)

theorem validate_issue_of_not_isLost (subject secret : String) (hnow : now.unixSecs ≤ maxSecs / 2)
    (h : ¬ IsLost now ttl) :
    validate secret now (issue subject secret now ttl) = .ok (issuedClaims subject now ttl) := by
  have hattests := attests_issue_of_le subject secret ttl hnow
  have hlow : 0 ≤ (issuedClaims subject now ttl).exp :=
    Int.not_lt.mp fun hneg ↦ h ((exp_neg_iff hnow).mp hneg)
  exact validate_eq_ok_iff.mpr
    ⟨_, hattests, hlow, (unixSecs_le_exp_iff hnow).mpr h, hasAudience_toJson _⟩

end

/-! ## How tokens are dated -/

/-- What is to be said of the last second of a token that is issued now, for every length of its
time. -/
structure DatesIssued (subject secret : String) (now : Instant) (ttl : Duration) : Prop where
  /-- It is the sum, if the sum fits. -/
  exact (h : now.unixSecs + ttl.wholeSecs ≤ maxSecs) :
    (issuedClaims subject now ttl).exp = now.unixSecs + ttl.wholeSecs
  /-- It is between the second of the issue and the last one that can be written, unless the time is
  lost. -/
  inRange_iff : (issuedClaims subject now ttl).iat ≤ (issuedClaims subject now ttl).exp ∧
    (issuedClaims subject now ttl).exp ≤ maxSecs ↔ ¬ IsLost now ttl
  /-- Then it is before 1970. -/
  neg_iff : (issuedClaims subject now ttl).exp < 0 ↔ IsLost now ttl
  /-- A longer time is over earlier only if it is lost, or if it is too long for a number of seconds
  and the shorter one is more than the half that it counts as. -/
  earlier_iff (longer : Duration) (hle : ttl ≤ longer) :
    (issuedClaims subject now longer).exp < (issuedClaims subject now ttl).exp ↔
      now.unixSecs + ttl.wholeSecs ≤ maxSecs ∧
        (IsLost now longer ∨ maxSecs < longer.wholeSecs ∧ maxSecs / 2 < ttl.wholeSecs)
  /-- The token is accepted at once, unless its time is lost. -/
  accepted_iff : validate secret now (issue subject secret now ttl)
    = .ok (issuedClaims subject now ttl) ↔ ¬ IsLost now ttl
  /-- Then it is never accepted. -/
  refused (h : IsLost now ttl) (later : Instant) :
    validate secret later (issue subject secret now ttl)
      = .error (.invalid "Missing required claim: exp")

/-- **Which times are lost**: those that fit a signed word and whose sum with the present does not.
The present may be any second up to half of the last one that can be written, which is far behind
the year 9999. -/
theorem dates_issuedClaims (subject secret : String) (now : Instant) (ttl : Duration)
    (hnow : now.unixSecs ≤ maxSecs / 2) : DatesIssued subject secret now ttl where
  exact h := exp_of_fits h
  inRange_iff := by
    have hiat : (issuedClaims subject now ttl).iat = now.unixSecs := rfl
    have hhigh : (issuedClaims subject now ttl).exp ≤ maxSecs := (exp_mem_word hnow).2
    rw [hiat, and_iff_left hhigh, unixSecs_le_exp_iff hnow]
  neg_iff := exp_neg_iff hnow
  earlier_iff longer hle := exp_lt_exp_iff hnow hle
  accepted_iff := by
    refine ⟨fun haccepted hlost ↦ ?_, validate_issue_of_not_isLost subject secret hnow⟩
    rw [validate_issue_of_isLost subject secret hnow hlost] at haccepted
    cases haccepted
  refused h later := validate_issue_of_isLost subject secret hnow h later

/-- The last second of the year 9999: a time that ends with the last second that can be written is
kept, and one that is a second longer is lost. -/
theorem dates_issuedClaims_9999 :
    let now := Instant.ofMillis 253402300799000
    let ttl := Duration.ofSecs (maxSecs - now.unixSecs)
    let longer := Duration.ofSecs (maxSecs - now.unixSecs + 1)
    now.unixSecs ≤ maxSecs / 2 ∧
      validate "key" now (issue "bob" "key" now ttl) = .ok ⟨"bob", maxSecs, 253402300799⟩ ∧
      validate "key" now (issue "bob" "key" now longer)
        = .error (.invalid "Missing required claim: exp") := by
  intro now ttl longer
  have hnow : now.unixSecs ≤ maxSecs / 2 := by decide
  have hkept : ¬ IsLost now ttl := fun h ↦ absurd h.2 (by decide)
  have hlost : IsLost now longer := ⟨by decide, by decide⟩
  have hclaims : issuedClaims "bob" now ttl = ⟨"bob", maxSecs, 253402300799⟩ := by decide
  have haccepted := (dates_issuedClaims "bob" "key" now ttl hnow).accepted_iff.mpr hkept
  rw [hclaims] at haccepted
  exact ⟨hnow, haccepted, (dates_issuedClaims "bob" "key" now longer hnow).refused hlost now⟩

/-- Times at the border of a word, in the year 2023. The longest one that fits is lost: its token is
over before it is issued and is never accepted. One that is a second longer is not lost, but it is
over much earlier than the longest one whose sum fits. -/
theorem exp_issuedClaims_lt_iat :
    let now := Instant.ofMillis 1700000000000
    let exp := fun secs ↦ (issuedClaims "u" now (Duration.ofSecs secs)).exp
    now.unixSecs ≤ 253402300799 ∧
      exp maxSecs < (issuedClaims "u" now (Duration.ofSecs maxSecs)).iat ∧
      validate "s" now (issue "u" "s" now (Duration.ofSecs maxSecs))
        = .error (.invalid "Missing required claim: exp") ∧
      exp (maxSecs - 1700000000) = maxSecs ∧ exp (maxSecs + 1) = 4611686020127387903 := by
  intro now exp
  have hlost : IsLost now (Duration.ofSecs maxSecs) := ⟨by decide, by decide⟩
  exact ⟨by decide, by decide, validate_issue_of_isLost "u" "s" (by decide) hlost now, by decide,
    by decide⟩

end Gatehouse.Token
