import Gatehouse.Glob

/-!
# What a pattern matches

`Matches` says by constructors which keys a pattern stands for, octet by octet and without a table
of suffixes. It knows no character classes, and a backslash with nothing behind it matches nothing.
**`isMatch_iff_matches`**: on the patterns in which no bracket opens a class and no backslash
dangles, this is what matching computes.
-/

namespace Gatehouse.Glob

/-- An octet that stands for itself. -/
def IsLiteral (b : UInt8) : Prop := b ≠ 0x2A ∧ b ≠ 0x3F ∧ b ≠ 0x5B ∧ b ≠ 0x5C

/-- The pattern stands for the key. -/
inductive Matches : Bytes → Bytes → Prop
  | nil : Matches [] []
  /-- A star stands for nothing … -/
  | starNil {p k : Bytes} : Matches p k → Matches (0x2A :: p) k
  /-- … or for one octet more. -/
  | starCons {p k : Bytes} {b : UInt8} : Matches (0x2A :: p) k → Matches (0x2A :: p) (b :: k)
  | one {p k : Bytes} {b : UInt8} : Matches p k → Matches (0x3F :: p) (b :: k)
  | escaped {p k : Bytes} {b : UInt8} : Matches p k → Matches (0x5C :: b :: p) (b :: k)
  | literal {p k : Bytes} {b : UInt8} : IsLiteral b → Matches p k → Matches (b :: p) (b :: k)

/-- Every opening bracket is escaped, and every backslash has an octet behind it. -/
def isPlain : Bytes → Bool
  | [] => true
  | [b] => b != 0x5B && b != 0x5C
  | b :: c :: rest => if b = 0x5C then isPlain rest else b != 0x5B && isPlain (c :: rest)

/-! ## Reading a pattern from its front -/

theorem isPlain_cons {b : UInt8} (h : b ≠ 0x5C) (p : Bytes) :
    isPlain (b :: p) = (b != 0x5B && isPlain p) := by
  cases p <;> simp [isPlain, h]

theorem pieces_star (p : Bytes) : pieces (0x2A :: p) = .any :: pieces p := by
  cases p <;> rfl

theorem pieces_one (p : Bytes) : pieces (0x3F :: p) = .one :: pieces p := by
  cases p <;> rfl

theorem pieces_escaped (b : UInt8) (p : Bytes) : pieces (0x5C :: b :: p) = .octet b :: pieces p :=
  rfl

theorem pieces_cons_octet {b : UInt8} (hstar : b ≠ 0x2A) (hone : b ≠ 0x3F) (hescape : b ≠ 0x5C)
    (p : Bytes) : pieces (b :: p) = .octet b :: pieces p := by
  cases p <;> simp [pieces, hstar, hone, hescape]

/-- A pattern that is not empty begins with a star, a question mark, an escaped octet, or an octet
that stands for itself, unless it is a single backslash. -/
theorem pattern_induction {motive : Bytes → Prop} (nil : motive [])
    (star : ∀ p, motive p → motive (0x2A :: p)) (one : ∀ p, motive p → motive (0x3F :: p))
    (escaped : ∀ b p, motive p → motive (0x5C :: b :: p)) (dangling : motive [0x5C])
    (literal : ∀ b p, b ≠ 0x2A → b ≠ 0x3F → b ≠ 0x5C → motive p → motive (b :: p)) :
    ∀ p : Bytes, motive p
  | [] => nil
  | b :: p => by
    by_cases hescape : b = 0x5C
    · subst hescape
      cases p with
      | nil => exact dangling
      | cons c p => exact escaped c p (pattern_induction nil star one escaped dangling literal p)
    · have ih := pattern_induction nil star one escaped dangling literal p
      by_cases hstar : b = 0x2A
      · exact hstar ▸ star p ih
      · by_cases hone : b = 0x3F
        · exact hone ▸ one p ih
        · exact literal b p hstar hone hescape ih

/-- A plain pattern that is not empty begins with a star, a question mark, an escaped octet or an
octet that stands for itself; the rest of it is plain again. -/
theorem isPlain_induction {motive : Bytes → Prop} (nil : motive [])
    (star : ∀ p, motive p → motive (0x2A :: p)) (one : ∀ p, motive p → motive (0x3F :: p))
    (escaped : ∀ b p, motive p → motive (0x5C :: b :: p))
    (literal : ∀ b p, IsLiteral b → motive p → motive (b :: p)) (p : Bytes) :
    isPlain p = true → motive p := by
  induction p using pattern_induction with
  | nil => exact fun _ ↦ nil
  | star p ih => exact fun h ↦ star p (ih ((isPlain_cons (by decide) p).symm.trans h))
  | one p ih => exact fun h ↦ one p (ih ((isPlain_cons (by decide) p).symm.trans h))
  | escaped b p ih => exact fun h ↦ escaped b p (ih h)
  | dangling => exact nofun
  | literal b p hstar hone hescape ih =>
    intro h
    rw [isPlain_cons hescape, Bool.and_eq_true, bne_iff_ne] at h
    exact literal b p ⟨hstar, hone, h.1, hescape⟩ (ih h.2)

/-! ## Matching -/

theorem matches_nil_iff {k : Bytes} : Matches [] k ↔ k = [] := by
  constructor
  · rintro ⟨⟩
    rfl
  · rintro rfl
    exact .nil

theorem matches_star_nil_iff {p : Bytes} : Matches (0x2A :: p) [] ↔ Matches p [] := by
  constructor
  · intro h
    cases h with
    | starNil h => exact h
  · exact .starNil

theorem matches_star_cons_iff {p k : Bytes} {b : UInt8} :
    Matches (0x2A :: p) (b :: k) ↔ Matches p (b :: k) ∨ Matches (0x2A :: p) k := by
  constructor
  · intro h
    cases h with
    | starNil h => exact .inl h
    | starCons h => exact .inr h
    | literal hb => exact absurd rfl hb.1
  · rintro (h | h)
    · exact .starNil h
    · exact .starCons h

theorem matches_one_iff {p k : Bytes} :
    Matches (0x3F :: p) k ↔ ∃ b k', k = b :: k' ∧ Matches p k' := by
  constructor
  · intro h
    cases h with
    | one h => exact ⟨_, _, rfl, h⟩
    | literal hb => exact absurd rfl hb.2.1
  · rintro ⟨b, k', rfl, h⟩
    exact .one h

theorem matches_escaped_iff {p k : Bytes} {b : UInt8} :
    Matches (0x5C :: b :: p) k ↔ ∃ k', k = b :: k' ∧ Matches p k' := by
  constructor
  · intro h
    cases h with
    | escaped h => exact ⟨_, rfl, h⟩
    | literal hb => exact absurd rfl hb.2.2.2
  · rintro ⟨k', rfl, h⟩
    exact .escaped h

theorem matches_literal_iff {p k : Bytes} {b : UInt8} (hb : IsLiteral b) :
    Matches (b :: p) k ↔ ∃ k', k = b :: k' ∧ Matches p k' := by
  constructor
  · intro h
    cases h with
    | starNil => exact absurd rfl hb.1
    | starCons => exact absurd rfl hb.1
    | one => exact absurd rfl hb.2.1
    | escaped => exact absurd rfl hb.2.2.2
    | literal _ h => exact ⟨_, rfl, h⟩
  · rintro ⟨k', rfl, h⟩
    exact .literal hb h

theorem accepts_one_iff {ps : List Piece} {k : Bytes} :
    accepts (.one :: ps) k = true ↔ ∃ b k', k = b :: k' ∧ accepts ps k' = true := by
  cases k with
  | nil => simp [accepts_cons_nil]
  | cons c k =>
    rw [accepts_cons_one]
    constructor
    · exact fun h ↦ ⟨c, k, rfl, h⟩
    · rintro ⟨b, k', heq, h⟩
      cases heq
      exact h

theorem accepts_octet_iff {b : UInt8} {ps : List Piece} {k : Bytes} :
    accepts (.octet b :: ps) k = true ↔ ∃ k', k = b :: k' ∧ accepts ps k' = true := by
  cases k with
  | nil => simp [accepts_cons_nil]
  | cons c k =>
    rw [accepts_cons_octet, Bool.and_eq_true, beq_iff_eq]
    constructor
    · rintro ⟨rfl, h⟩
      exact ⟨k, rfl, h⟩
    · rintro ⟨k', heq, h⟩
      cases heq
      exact ⟨rfl, h⟩

theorem accepts_iff_matches {p : Bytes} (h : isPlain p = true) :
    ∀ k, accepts (pieces p) k = true ↔ Matches p k := by
  refine isPlain_induction (motive := fun p ↦ ∀ k, accepts (pieces p) k = true ↔ Matches p k)
    ?nil ?star ?one ?escaped ?literal p h
  case nil =>
    intro k
    have hpieces : pieces [] = [] := rfl
    rw [hpieces, accepts_nil, List.isEmpty_iff, matches_nil_iff]
  case star =>
    intro p ih k
    rw [pieces_star]
    -- a star takes as many octets as it likes, so the induction goes on over the key
    induction k with
    | nil =>
      rw [accepts_cons_nil, matches_star_nil_iff, ← ih]
      simp
    | cons b k ihk => rw [accepts_cons_any, Bool.or_eq_true, matches_star_cons_iff, ih, ihk]
  case one =>
    intro p ih k
    rw [pieces_one, matches_one_iff, accepts_one_iff]
    simp only [ih]
  case escaped =>
    intro b p ih k
    rw [pieces_escaped, matches_escaped_iff, accepts_octet_iff]
    simp only [ih]
  case literal =>
    intro b p hb ih k
    rw [pieces_cons_octet hb.1 hb.2.1 hb.2.2.2, matches_literal_iff hb, accepts_octet_iff]
    simp only [ih]

/-- **Matching a plain pattern.** The computed answer is the documented one. -/
theorem isMatch_iff_matches {pattern : String} (h : isPlain (utf8 pattern) = true) (key : String) :
    isMatch pattern key = true ↔ Matches (utf8 pattern) (utf8 key) :=
  accepts_iff_matches h (utf8 key)

end Gatehouse.Glob
