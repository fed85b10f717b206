import Gatehouse.Proofs.Glob
import Mathlib.Tactic.SplitIfs

/-!
# One star is enough

`Denotes` says what a pattern stands for, whatever the pattern: a bracket stands for itself, and a
backslash with nothing behind it for nothing. **`isMatch_iff_denotes`** says that this is what
matching computes, for every pattern and every key.

Matching is commonly done without a table, by a scan from the front: `Scan`. It reads the pattern
and the key side by side; at a star it goes on as if the star stood for nothing, and remembers the
place; and where the two do not fit, it goes back and lets the star that it met last stand for one
octet more. The same theorem says that such a scan comes to an end, and to the same verdict.

## Why earlier stars may be forgotten

Between two stars a pattern takes as many octets as it has pieces. So whatever an earlier star might
still take, the later star is reached no further to the front of the key than it was the first time,
and being a star it can make up for the difference: `Scan.exists_suffix_of_pending`. Hence what the
scan may still find, `Scan.finds`, is the same before and after every step.

## Why the scan ends

A scan that goes back reads the same part of the pattern again. But the key that the star leaves has
become shorter, and a star that is met replaces the one that is remembered by one further behind.
-/

namespace Gatehouse.Glob

/-- The pattern stands for the key. -/
inductive Denotes : Bytes → Bytes → Prop
  | nil : Denotes [] []
  /-- A star stands for any run of octets. -/
  | star {p k : Bytes} (run : Bytes) : Denotes p k → Denotes (0x2A :: p) (run ++ k)
  /-- A question mark stands for any one octet. -/
  | one {p k : Bytes} (b : UInt8) : Denotes p k → Denotes (0x3F :: p) (b :: k)
  /-- Behind a backslash every octet stands for itself. A last backslash stands for nothing. -/
  | escaped {p k : Bytes} (b : UInt8) : Denotes p k → Denotes (0x5C :: b :: p) (b :: k)
  /-- So does every octet that is no star, no question mark and no backslash. -/
  | literal {p k : Bytes} {b : UInt8} (hstar : b ≠ 0x2A) (hone : b ≠ 0x3F) (hescape : b ≠ 0x5C) :
    Denotes p k → Denotes (b :: p) (b :: k)

/-! ## Stars, and pieces that are none -/

section

variable {ps read : List Piece} {k : Bytes}

/-- A star leaves as much of a key as it likes. -/
theorem accepts_any_iff :
    accepts (.any :: ps) k = true ↔ ∃ run k', k = run ++ k' ∧ accepts ps k' = true := by
  induction k with
  | nil =>
    rw [accepts_cons_nil]
    constructor
    · exact fun h ↦ ⟨[], [], rfl, by simpa using h⟩
    · rintro ⟨run, k', hk, h⟩
      obtain ⟨-, rfl⟩ := List.append_eq_nil_iff.mp hk.symm
      rw [h]
      rfl
  | cons b k ih =>
    rw [accepts_cons_any, Bool.or_eq_true, ih]
    constructor
    · rintro (h | ⟨run, k', rfl, h⟩)
      · exact ⟨[], b :: k, rfl, h⟩
      · exact ⟨b :: run, k', rfl, h⟩
    · rintro ⟨_ | ⟨c, run⟩, k', hk, h⟩
      · exact .inl (hk ▸ h)
      · obtain ⟨rfl, rfl⟩ := List.cons.inj hk
        exact .inr ⟨run, k', rfl, h⟩

theorem accepts_any_of_suffix {k' : Bytes} (h : accepts (.any :: ps) k' = true)
    (hsuffix : k' <:+ k) : accepts (.any :: ps) k = true := by
  obtain ⟨front, rfl⟩ := hsuffix
  obtain ⟨run, rest, rfl, hrest⟩ := accepts_any_iff.mp h
  exact accepts_any_iff.mpr ⟨front ++ run, rest, (List.append_assoc ..).symm, hrest⟩

/-- A star stands for nothing, or for one octet and what it may stand for behind it. -/
theorem accepts_any_tail (ps : List Piece) (k : Bytes) :
    accepts (.any :: ps) k = (accepts ps k || accepts (.any :: ps) k.tail) := by
  cases k with
  | nil => rw [List.tail_nil, accepts_cons_nil]; simp
  | cons b k => exact accepts_cons_any ps b k

/-- Pieces that are no stars take one octet each. -/
theorem exists_suffix_of_accepts (hread : .any ∉ read) (h : accepts (read ++ ps) k = true) :
    ∃ k', k' <:+ k ∧ k'.length + read.length = k.length ∧ accepts ps k' = true := by
  induction read generalizing k with
  | nil => exact ⟨k, List.suffix_rfl, rfl, h⟩
  | cons x read ih =>
    rw [List.mem_cons, not_or] at hread
    have hstep : ∃ b k', k = b :: k' ∧ accepts (read ++ ps) k' = true := by
      cases x with
      | any => exact absurd rfl hread.1
      | one => exact accepts_one_iff.mp h
      | octet b => exact ⟨b, accepts_octet_iff.mp h⟩
      | never => exact absurd ((accepts_cons_never _ k).symm.trans h) (by decide)
    obtain ⟨b, k, rfl, hrest⟩ := hstep
    obtain ⟨k', hsuffix, hlength, h⟩ := ih hread.2 hrest
    refine ⟨k', hsuffix.trans (List.suffix_cons b k), ?_, h⟩
    rw [List.length_cons, List.length_cons, ← hlength, Nat.add_assoc]

end

/-! ## What is computed -/

theorem pieces_dangling : pieces [0x5C] = [.never] := rfl

/-- What stands for the empty key are stars. -/
theorem accepts_pieces_nil (p : Bytes) : accepts (pieces p) [] = p.all fun b ↦ b == 0x2A := by
  induction p using pattern_induction with
  | nil => rfl
  | star p ih => rw [pieces_star, accepts_cons_nil, ih]; rfl
  | one p ih => rw [pieces_one, accepts_cons_nil]; rfl
  | escaped b p ih => rw [pieces_escaped, accepts_cons_nil]; rfl
  | dangling => rfl
  | literal b p hstar hone hescape ih =>
    rw [pieces_cons_octet hstar hone hescape, accepts_cons_nil, List.all_cons,
      beq_false_of_ne hstar]
    rfl

theorem accepts_iff_denotes (p : Bytes) : ∀ k, accepts (pieces p) k = true ↔ Denotes p k := by
  induction p using pattern_induction with
  | nil =>
    intro k
    have hpieces : pieces [] = [] := rfl
    rw [hpieces, accepts_nil, List.isEmpty_iff]
    constructor
    · rintro rfl
      exact .nil
    · rintro ⟨⟩
      rfl
  | star p ih =>
    intro k
    rw [pieces_star, accepts_any_iff]
    constructor
    · rintro ⟨run, k', rfl, h⟩
      exact .star run ((ih k').mp h)
    · intro h
      cases h with
      | star run h => exact ⟨run, _, rfl, (ih _).mpr h⟩
      | literal hstar => exact absurd rfl hstar
  | one p ih =>
    intro k
    rw [pieces_one, accepts_one_iff]
    constructor
    · rintro ⟨b, k', rfl, h⟩
      exact .one b ((ih k').mp h)
    · intro h
      cases h with
      | one b h => exact ⟨b, _, rfl, (ih _).mpr h⟩
      | literal _ hone => exact absurd rfl hone
  | escaped b p ih =>
    intro k
    rw [pieces_escaped, accepts_octet_iff]
    constructor
    · rintro ⟨k', rfl, h⟩
      exact .escaped b ((ih k').mp h)
    · intro h
      cases h with
      | escaped _ h => exact ⟨_, rfl, (ih _).mpr h⟩
      | literal _ _ hescape => exact absurd rfl hescape
  | dangling =>
    intro k
    rw [pieces_dangling, accepts_cons_never]
    constructor
    · exact nofun
    · intro h
      cases h with
      | literal _ _ hescape => exact absurd rfl hescape
  | literal b p hstar hone hescape ih =>
    intro k
    rw [pieces_cons_octet hstar hone hescape, accepts_octet_iff]
    constructor
    · rintro ⟨k', rfl, h⟩
      exact .literal hstar hone hescape ((ih k').mp h)
    · intro h
      cases h with
      | star => exact absurd rfl hstar
      | one => exact absurd rfl hone
      | escaped => exact absurd rfl hescape
      | literal _ _ _ h => exact ⟨_, rfl, (ih _).mpr h⟩

/-! ## Scanning -/

/-- A scan of a key. -/
structure Scan where
  /-- What is left of the pattern. -/
  pattern : Bytes
  /-- What is left of the key. -/
  key : Bytes
  /-- The pattern behind the last star that was met, and the key that the star leaves. -/
  star : Option (Bytes × Bytes)

namespace Scan

/-- What comes of a step: the scan goes on, or there is a verdict. -/
inductive Step where
  | on (s : Scan)
  | verdict (b : Bool)

def start (pattern key : Bytes) : Scan := ⟨pattern, key, none⟩

/-- Let the last star stand for one octet more. Without a star there is no match. -/
def retry (s : Scan) : Step :=
  match s.star with
  | none => .verdict false
  | some (p, k) => .on ⟨p, k.tail, some (p, k.tail)⟩

/-- One step. At the end of the key, only stars may be left of the pattern. -/
def step (s : Scan) : Step :=
  match s.key, s.pattern with
  | [], p => .verdict (p.all fun b ↦ b == 0x2A)
  | _ :: _, [] => s.retry
  | b :: k, c :: p =>
    if c = 0x2A then .on ⟨p, b :: k, some (p, b :: k)⟩
    else if c = 0x3F then .on ⟨p, k, s.star⟩
    else if c = 0x5C then
      match p with
      | [] => s.retry
      | d :: p => if d = b then .on ⟨p, k, s.star⟩ else s.retry
    else if c = b then .on ⟨p, k, s.star⟩
    else s.retry

/-- The scan comes to an end, with a verdict. -/
inductive Ends : Scan → Bool → Prop
  | verdict {s : Scan} {b : Bool} (h : s.step = .verdict b) : Ends s b
  | on {s s' : Scan} {b : Bool} (h : s.step = .on s') (hends : Ends s' b) : Ends s b

variable {s s' : Scan} {b b' : Bool}

theorem Ends.unique (h : s.Ends b) (h' : s.Ends b') : b = b' := by
  induction h with
  | verdict h =>
    cases h' with
    | verdict h' => exact Step.verdict.inj (h.symm.trans h')
    | on h' => exact absurd (h.symm.trans h') nofun
  | on h _ ih =>
    cases h' with
    | verdict h' => exact absurd (h.symm.trans h') nofun
    | on h' hends' => exact ih (Step.on.inj (h.symm.trans h') ▸ hends')

/-! ### What a step does -/

/-- All that a step can do. -/
inductive Does (s : Scan) : Step → Prop
  | finishes (hkey : s.key = []) : Does s (.verdict (s.pattern.all fun b ↦ b == 0x2A))
  | meets {p : Bytes} (hkey : s.key ≠ []) (hpattern : s.pattern = 0x2A :: p) :
    Does s (.on ⟨p, s.key, some (p, s.key)⟩)
  /-- The first piece of the pattern is no star, and takes the first octet of the key. -/
  | reads {x : Piece} {front p k : Bytes} {b : UInt8} (hkey : s.key = b :: k)
      (hpattern : s.pattern = front ++ p) (hfront : front ≠ [])
      (hpieces : pieces s.pattern = x :: pieces p) (hx : x ≠ .any)
      (hfits : ∀ ps, accepts (x :: ps) (b :: k) = accepts ps k) : Does s (.on ⟨p, k, s.star⟩)
  /-- The pattern does not fit as it is, and no star was met. -/
  | fails (hmiss : accepts (pieces s.pattern) s.key = false) (hstar : s.star = none) :
    Does s (.verdict false)
  | retries {p k : Bytes} (hkey : s.key ≠ []) (hmiss : accepts (pieces s.pattern) s.key = false)
      (hstar : s.star = some (p, k)) : Does s (.on ⟨p, k.tail, some (p, k.tail)⟩)

theorem does_retry (hkey : s.key ≠ []) (hmiss : accepts (pieces s.pattern) s.key = false) :
    s.Does s.retry := by
  rw [retry]
  rcases hstar : s.star with _ | ⟨p, k⟩
  · exact .fails hmiss hstar
  · exact .retries hkey hmiss hstar

theorem does_step (s : Scan) : s.Does s.step := by
  obtain ⟨pattern, key, star⟩ := s
  cases key with
  | nil => exact .finishes rfl
  | cons b k =>
    have hkey : b :: k ≠ [] := List.cons_ne_nil b k
    cases pattern with
    | nil => exact does_retry hkey rfl
    | cons c p =>
      simp only [step]
      split_ifs with hstar hone hescape hc
      · subst hstar
        exact .meets hkey rfl
      · subst hone
        exact .reads rfl List.singleton_append.symm (List.cons_ne_nil _ _) (pieces_one p) nofun
          fun ps ↦ accepts_cons_one ps b k
      · subst hescape
        cases p with
        | nil => exact does_retry hkey (accepts_cons_never _ _)
        | cons d p =>
          simp only []
          split_ifs with hd
          · subst hd
            have hpattern : 0x5C :: d :: p = [0x5C, d] ++ p := rfl
            refine .reads (x := .octet d) rfl hpattern (List.cons_ne_nil _ _)
              (pieces_escaped d p) nofun fun ps ↦ ?_
            rw [accepts_cons_octet, beq_self_eq_true, Bool.true_and]
          · refine does_retry hkey ?_
            rw [pieces_escaped, accepts_cons_octet, beq_false_of_ne hd, Bool.false_and]
      · subst hc
        refine .reads (x := .octet c) rfl List.singleton_append.symm (List.cons_ne_nil _ _)
          (pieces_cons_octet hstar hone hescape p) nofun fun ps ↦ ?_
        rw [accepts_cons_octet, beq_self_eq_true, Bool.true_and]
      · refine does_retry hkey ?_
        rw [pieces_cons_octet hstar hone hescape, accepts_cons_octet, beq_false_of_ne hc,
          Bool.false_and]

/-! ### What the scan may still find -/

/-- Whether there is a match in which the last star stands for more than it does. -/
def pending (s : Scan) : Bool :=
  match s.star with
  | none => false
  | some (p, k) => accepts (.any :: pieces p) k.tail

/-- Whether there is a match in which the last star stands for what it does, or for more. -/
def finds (s : Scan) : Bool := accepts (pieces s.pattern) s.key || s.pending

/-- Since the last star, as many octets as pieces have been read. -/
structure Since (s : Scan) (p k : Bytes) (front : Bytes) (read : List Piece) (run : Bytes) :
    Prop where
  pattern_eq : p = front ++ s.pattern
  pieces_eq : pieces p = read ++ pieces s.pattern
  key_eq : k = run ++ s.key
  any_notMem : .any ∉ read
  length_eq : run.length = read.length

/-- What is left is what the last star leaves, less what has been read since. -/
def Orderly (s : Scan) : Prop :=
  ∀ p k, s.star = some (p, k) → ∃ front read run, s.Since p k front read run

theorem orderly_start (pattern key : Bytes) : (start pattern key).Orderly := nofun

/-- At the place where a star is met, nothing has been read since. -/
theorem orderly_of_star (p k : Bytes) : Orderly ⟨p, k, some (p, k)⟩ := by
  rintro _ _ ⟨⟩
  exact ⟨[], [], [], rfl, rfl, rfl, List.not_mem_nil, rfl⟩

/-- **Earlier stars may be forgotten.** Whatever the last star stands for besides, what is left of
the pattern has to match an end of what is left of the key. -/
theorem exists_suffix_of_pending (hs : s.Orderly) (h : s.pending = true) :
    ∃ k', k' <:+ s.key ∧ accepts (pieces s.pattern) k' = true := by
  rw [pending] at h
  rcases hstar : s.star with _ | ⟨p, k⟩ <;> rw [hstar] at h
  · cases h
  · obtain ⟨front, read, run, hsince⟩ := hs p k hstar
    obtain ⟨more, w, hw, haccepts⟩ := accepts_any_iff.mp h
    rw [hsince.pieces_eq] at haccepts
    obtain ⟨k', hsuffix, hlength, haccepts⟩ := exists_suffix_of_accepts hsince.any_notMem haccepts
    have hrest : w <:+ k.tail := ⟨more, hw.symm⟩
    have hwk : w <:+ k := hrest.trans (List.tail_suffix k)
    have hkey : s.key <:+ k := ⟨run, hsince.key_eq.symm⟩
    have hlw := hwk.length_le
    rw [hsince.key_eq, List.length_append, hsince.length_eq] at hlw
    exact ⟨k', List.suffix_of_suffix_length_le (hsuffix.trans hwk) hkey (by omega), haccepts⟩

/-- What is certain to be found whenever something is pending, is what there is to find. -/
theorem finds_eq_of_pending {found : Bool} (h : accepts (pieces s.pattern) s.key = found)
    (hpending : s.pending = true → found = true) : s.finds = found := by
  rw [finds, h]
  cases hp : s.pending with
  | false => exact Bool.or_false _
  | true => rw [hpending hp, Bool.true_or]

/-! ### One step -/

/-- A verdict is right. -/
theorem eq_finds_of_verdict (hs : s.Orderly) (h : s.step = .verdict b) : b = s.finds := by
  have hdoes := s.does_step
  rw [h] at hdoes
  cases hdoes with
  | finishes hkey =>
    have haccepts := accepts_pieces_nil s.pattern
    rw [← hkey] at haccepts
    refine (finds_eq_of_pending haccepts fun hpending ↦ ?_).symm
    obtain ⟨k', hsuffix, hk'⟩ := exists_suffix_of_pending hs hpending
    rw [hkey] at hsuffix
    rwa [List.suffix_nil.mp hsuffix, accepts_pieces_nil] at hk'
  | fails hmiss hstar => rw [finds, hmiss, pending, hstar]; rfl

/-- How far a scan is from its end, the most important number first. -/
def rank (s : Scan) : Nat × Nat × Nat :=
  match s.star with
  | none => (s.pattern.length + 1, 0, 0)
  | some (p, k) => (p.length, k.length, s.pattern.length)

/-- A scan comes closer to its end, and may find what it could find before. -/
structure Advances (s s' : Scan) : Prop where
  orderly : s'.Orderly
  finds_eq : s'.finds = s.finds
  rank_lt : Prod.Lex (· < ·) (Prod.Lex (· < ·) (· < ·)) s'.rank s.rank

theorem advances_of_meets {p : Bytes} (hs : s.Orderly) (hpattern : s.pattern = 0x2A :: p) :
    s.Advances ⟨p, s.key, some (p, s.key)⟩ where
  orderly := orderly_of_star p s.key
  finds_eq := by
    have haccepts : accepts (pieces s.pattern) s.key = accepts (.any :: pieces p) s.key := by
      rw [hpattern, pieces_star]
    refine ((finds_eq_of_pending haccepts fun hpending ↦ ?_).trans
      (accepts_any_tail (pieces p) s.key)).symm
    obtain ⟨k', hsuffix, hk'⟩ := exists_suffix_of_pending hs hpending
    rw [hpattern, pieces_star] at hk'
    exact accepts_any_of_suffix hk' hsuffix
  rank_lt := by
    rcases hstar : s.star with _ | ⟨p', k'⟩ <;> simp only [rank, hstar] <;> refine .left _ _ ?_
    · rw [hpattern, List.length_cons]
      omega
    · obtain ⟨front, read, run, hsince⟩ := hs p' k' hstar
      rw [hsince.pattern_eq, hpattern, List.length_append, List.length_cons]
      omega

theorem advances_of_reads {x : Piece} {front p k : Bytes} {b : UInt8} (hs : s.Orderly)
    (hkey : s.key = b :: k) (hpattern : s.pattern = front ++ p) (hfront : front ≠ [])
    (hpieces : pieces s.pattern = x :: pieces p) (hx : x ≠ .any)
    (hfits : ∀ ps, accepts (x :: ps) (b :: k) = accepts ps k) : s.Advances ⟨p, k, s.star⟩ where
  orderly := by
    intro p' k' hstar
    obtain ⟨before, read, run, hsince⟩ := hs p' k' hstar
    refine ⟨before ++ front, read ++ [x], run ++ [b], ?_, ?_, ?_, ?_, ?_⟩
    · rw [hsince.pattern_eq, hpattern, List.append_assoc]
    · rw [hsince.pieces_eq, hpieces, List.append_assoc, List.singleton_append]
    · rw [hsince.key_eq, hkey, List.append_assoc, List.singleton_append]
    · rw [List.mem_append, List.mem_singleton, not_or]
      exact ⟨hsince.any_notMem, hx.symm⟩
    · rw [List.length_append, List.length_append, hsince.length_eq]
      rfl
  finds_eq := by rw [finds, finds, hpieces, hkey, hfits]; rfl
  rank_lt := by
    have hlt : p.length < s.pattern.length := by
      rw [hpattern, List.length_append]
      exact Nat.lt_add_of_pos_left (List.length_pos_iff.mpr hfront)
    rcases hstar : s.star with _ | ⟨p', k'⟩ <;> simp only [rank, hstar]
    · exact .left _ _ (Nat.succ_lt_succ hlt)
    · exact .right _ (.right _ hlt)

theorem advances_of_retries {p k : Bytes} (hs : s.Orderly) (hkey : s.key ≠ [])
    (hmiss : accepts (pieces s.pattern) s.key = false) (hstar : s.star = some (p, k)) :
    s.Advances ⟨p, k.tail, some (p, k.tail)⟩ where
  orderly := orderly_of_star p k.tail
  finds_eq := by
    rw [finds, finds, hmiss, Bool.false_or, pending, pending, hstar]
    exact (accepts_any_tail (pieces p) k.tail).symm
  rank_lt := by
    obtain ⟨front, read, run, hsince⟩ := hs p k hstar
    have hk : k ≠ [] := fun hk ↦ hkey (List.append_eq_nil_iff.mp (hsince.key_eq.symm.trans hk)).2
    simp only [rank, hstar]
    refine .right _ (.left _ _ ?_)
    rw [List.length_tail]
    exact Nat.sub_lt (List.length_pos_iff.mpr hk) Nat.one_pos

theorem advances_of_step (hs : s.Orderly) (h : s.step = .on s') : s.Advances s' := by
  have hdoes := s.does_step
  rw [h] at hdoes
  cases hdoes with
  | meets hkey hpattern => exact advances_of_meets hs hpattern
  | reads hkey hpattern hfront hpieces hx hfits =>
    exact advances_of_reads hs hkey hpattern hfront hpieces hx hfits
  | retries hkey hmiss hstar => exact advances_of_retries hs hkey hmiss hstar

/-! ### A whole scan -/

/-- **A scan ends**, and its verdict is whether there is something to find. -/
theorem ends_finds (s : Scan) (hs : s.Orderly) : s.Ends s.finds := by
  rcases hstep : s.step with s' | b
  · have hadvances := advances_of_step hs hstep
    rw [← hadvances.finds_eq]
    exact .on hstep (ends_finds s' hadvances.orderly)
  · rw [← eq_finds_of_verdict hs hstep]
    exact .verdict hstep
termination_by s.rank
decreasing_by exact hadvances.rank_lt

theorem ends_start_iff (pattern key : Bytes) (b : Bool) :
    (start pattern key).Ends b ↔ b = accepts (pieces pattern) key := by
  have hends := ends_finds (start pattern key) (orderly_start pattern key)
  have hfinds : (start pattern key).finds = accepts (pieces pattern) key := Bool.or_false _
  rw [hfinds] at hends
  constructor
  · exact fun h ↦ h.unique hends
  · rintro rfl
    exact hends

end Scan

/-- **What matching computes.** The answer is whether the pattern stands for the key, for every
pattern and every key; and the scan that remembers one star comes to an end with this answer, and
with no other. -/
theorem isMatch_iff_denotes (pattern key : String) :
    (isMatch pattern key = true ↔ Denotes (utf8 pattern) (utf8 key)) ∧
      ∀ b, (Scan.start (utf8 pattern) (utf8 key)).Ends b ↔ b = isMatch pattern key :=
  ⟨accepts_iff_denotes (utf8 pattern) (utf8 key), Scan.ends_start_iff (utf8 pattern) (utf8 key)⟩

end Gatehouse.Glob
