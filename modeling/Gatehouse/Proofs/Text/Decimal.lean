import Gatehouse.Text.Decimal
import Mathlib.Tactic.SplitIfs

/-!
# What a numeral is

A text is read as a number exactly if it spells the number in decimal digits, with at most a plus
sign in front, and the number is in range: **`readWord_eq_ok_iff`**. How many zeros lead does not
matter, since the range is tested on the value read so far and never on the number of digits. The
test after each digit refuses nothing that a test of the whole value would accept, because the
value only grows, `le_ofDigitChars`.
-/

namespace Gatehouse.Text

/-- Digits that spell a number. -/
structure AreDigits (cs : List Char) (n : Nat) : Prop where
  ne_nil : cs ≠ []
  digits : ∀ c ∈ cs, c.isDigit = true
  value : Nat.ofDigitChars 10 cs 0 = n

/-- A text that spells a number: digits, and perhaps a plus sign in front of them. -/
def Spells (s : String) (n : Nat) : Prop :=
  AreDigits s.toList n ∨ ∃ cs, s.toList = '+' :: cs ∧ AreDigits cs n

variable {max n : Nat}

/-! ## Digits -/

theorem digit?_eq_some_iff {c : Char} {d : Nat} :
    digit? c = some d ↔ c.isDigit = true ∧ c.toNat - '0'.toNat = d := by
  have hdigit : c.isDigit = true ↔ '0'.toNat ≤ c.toNat ∧ c.toNat ≤ '9'.toNat := by
    rw [Char.isDigit, Bool.and_eq_true, decide_eq_true_iff, decide_eq_true_iff]
    rfl
  rw [digit?, hdigit]
  split_ifs with h
  · rw [Option.some.injEq, and_iff_right h]
  · exact iff_of_false nofun fun hd ↦ h hd.1

theorem le_ofDigitChars (cs : List Char) (value : Nat) :
    value ≤ Nat.ofDigitChars 10 cs value := by
  induction cs generalizing value with
  | nil => exact Nat.le_refl _
  | cons c cs ih =>
    rw [Nat.ofDigitChars_cons]
    exact Nat.le_trans (by omega) (ih _)

/-- Digits are read to the end exactly if the value that they lead to is in range. -/
theorem readDigits_eq_ok_iff {cs : List Char} {value : Nat} (h : value ≤ max) :
    readDigits max value cs = .ok n ↔
      (∀ c ∈ cs, c.isDigit = true) ∧ Nat.ofDigitChars 10 cs value = n ∧ n ≤ max := by
  induction cs generalizing value with
  | nil =>
    simp only [readDigits, Except.ok.injEq, List.not_mem_nil, false_implies, implies_true,
      true_and, Nat.ofDigitChars_nil]
    exact ⟨fun hn ↦ ⟨hn, hn ▸ h⟩, And.left⟩
  | cons c cs ih =>
    rw [readDigits, List.forall_mem_cons, Nat.ofDigitChars_cons]
    cases hc : digit? c with
    | none =>
      have hdigit : ¬ c.isDigit = true := fun hdigit ↦ by
        simpa [hc] using digit?_eq_some_iff.mpr ⟨hdigit, rfl⟩
      exact iff_of_false nofun fun hn ↦ hdigit hn.1.1
    | some d =>
      obtain ⟨hdigit, rfl⟩ := digit?_eq_some_iff.mp hc
      simp only [hdigit, true_and, Nat.mul_comm value 10]
      split_ifs with hmax
      · -- the value is beyond the range already, and it does not shrink again
        refine iff_of_false nofun ?_
        rintro ⟨-, rfl, hn⟩
        exact absurd (Nat.lt_of_lt_of_le hmax (le_ofDigitChars cs _)) (Nat.not_lt.mpr hn)
      · exact ih (Nat.le_of_not_lt hmax)

/-- Digits after nothing, of which there is one at least. -/
theorem readDigits_zero_eq_ok_iff {cs : List Char} (h : cs ≠ []) :
    readDigits max 0 cs = .ok n ↔ AreDigits cs n ∧ n ≤ max := by
  rw [readDigits_eq_ok_iff (Nat.zero_le max), ← and_assoc]
  exact and_congr_left' ⟨fun ⟨hdigits, hvalue⟩ ↦ ⟨h, hdigits, hvalue⟩, fun hn ↦ ⟨hn.2, hn.3⟩⟩

/-! ## Numerals -/

theorem not_areDigits_sign (cs : List Char) : ¬ AreDigits ('+' :: cs) n := fun h ↦
  absurd (h.digits '+' List.mem_cons_self) (by decide)

theorem readNumeral_eq_ok_iff {cs : List Char} :
    readNumeral max cs = .ok n ↔
      (AreDigits cs n ∨ ∃ rest, cs = '+' :: rest ∧ AreDigits rest n) ∧ n ≤ max := by
  fun_cases readNumeral max cs with
  | case1 =>
    refine iff_of_false nofun ?_
    rintro ⟨hdigits | ⟨rest, hrest, -⟩, -⟩
    · exact hdigits.ne_nil rfl
    · exact absurd hrest nofun
  | case2 =>
    refine iff_of_false nofun ?_
    rintro ⟨hdigits | ⟨rest, hrest, hdigits⟩, -⟩
    · exact not_areDigits_sign _ hdigits
    · exact hdigits.ne_nil (List.cons.inj hrest).2.symm
  | case3 rest hrest =>
    simp only [not_areDigits_sign, false_or, List.cons.injEq, true_and, exists_eq_left']
    exact readDigits_zero_eq_ok_iff hrest
  | case4 _ hnil _ hsign =>
    rw [readDigits_zero_eq_ok_iff hnil]
    refine and_congr_left' ⟨Or.inl, ?_⟩
    rintro (hdigits | ⟨rest, hrest, -⟩)
    · exact hdigits
    · exact absurd hrest (hsign rest)

/-- A text spells one number at most: both would be read. -/
theorem Spells.unique {s : String} {m : Nat} (hm : Spells s m) (hn : Spells s n) : m = n := by
  have hread := readNumeral_eq_ok_iff.mpr ⟨hm, Nat.le_max_left m n⟩
  rw [readNumeral_eq_ok_iff.mpr ⟨hn, Nat.le_max_right m n⟩] at hread
  exact (Except.ok.inj hread).symm

/-- **Numerals.** A text is read as what it spells, as far as that fits the word. -/
theorem readWord_eq_ok_iff {bits : Nat} {s : String} :
    readWord bits s = .ok n ↔ Spells s n ∧ n ≤ maxWord bits := readNumeral_eq_ok_iff

theorem exists_readWord_eq_error_iff {bits : Nat} {s : String} :
    (∃ fault, readWord bits s = .error fault) ↔ ∀ n, Spells s n → ¬ n ≤ maxWord bits := by
  cases hread : readWord bits s with
  | ok value =>
    obtain ⟨hspells, hle⟩ := readWord_eq_ok_iff.mp hread
    exact iff_of_false nofun fun hnone ↦ hnone value hspells hle
  | error fault =>
    refine iff_of_true ⟨fault, rfl⟩ fun n hspells hle ↦ ?_
    rw [readWord_eq_ok_iff.mpr ⟨hspells, hle⟩] at hread
    cases hread

end Gatehouse.Text
