import Gatehouse.Cache.Key
import Gatehouse.Proofs.Glob
import Gatehouse.Proofs.Json.Record
import Gatehouse.Proofs.Store.Live
import Gatehouse.Settings
import Mathlib.Tactic.TFAE

/-!
# What a purge covers

The pattern of a purge is the name of the cache's space, taken as it is, with a star behind it. So
it stands for the keys that begin with the name only as long as the name holds nothing that a
pattern reads otherwise. **`Settings.purgePattern_scope`** says that this is the whole story: the
pattern covers exactly the keys of the space if and only if no character of the name is a star, a
question mark or a backslash.

## How the condition is seen to be needed

Every name has a `sample`, a key that its pattern matches and that is as short as such a key can
be: it has nothing where the name has a star, another character where the name has a question
mark, and one character where the name has a backslash and the character behind it. At the first of
these places the sample departs from the name, `not_prefix_sample`.

## Octets and characters

Patterns are read octet by octet, names and keys begin with each other character by character. The
two agree because the octets of a character beyond ASCII are all above those of ASCII,
`mem_utf8EncodeChar`, and because no character's octets begin those of another, `utf8_prefix_iff`.
-/

namespace Gatehouse

/-! ## The octets of a text -/

/-- The octet of a character of ASCII is its number; other characters have octets beyond ASCII. -/
theorem mem_utf8EncodeChar {c : Char} {b : UInt8} (h : b ∈ String.utf8EncodeChar c) :
    b.toNat = c.toNat ∨ 128 ≤ b.toNat := by
  have hoctet : ∀ n, (UInt8.ofNat n).toNat = n % 256 := fun _ ↦ rfl
  have hnum : c.val.toNat = c.toNat := rfl
  rw [String.utf8EncodeChar] at h
  split_ifs at h <;>
    (simp only [List.mem_cons, List.not_mem_nil, or_false] at h
     rcases h with rfl | rfl | rfl | rfl <;> rw [hoctet] <;> omega)

theorem utf8_prefix_iff {s t : String} : utf8 s <+: utf8 t ↔ s.toList <+: t.toList := by
  constructor
  · rintro ⟨rest, h⟩
    refine List.isPrefix_of_utf8Encode_append_eq_utf8Encode ⟨rest.toArray⟩ (ByteArray.ext ?_)
    refine Array.toList_inj.mp ?_
    simpa [utf8, String.toUTF8] using h
  · rintro ⟨rest, h⟩
    have htext : t = s ++ String.ofList rest := String.toList_injective (by simp [← h])
    exact ⟨utf8 (String.ofList rest), by rw [htext, utf8_append]⟩

theorem Text.startsWith_iff {s lead : String} :
    Text.startsWith s lead = true ↔ lead.toList <+: s.toList := List.isPrefixOf_iff_prefix

namespace Glob

/-! ## Pieces that stand for octets -/

/-- A character that a pattern reads as itself. -/
def IsPlain (c : Char) : Prop := c ≠ '*' ∧ c ≠ '?' ∧ c ≠ '\\'

instance : DecidablePred IsPlain := fun _ ↦ inferInstanceAs (Decidable (_ ∧ _))

theorem pieces_append {bs : Bytes} (h : ∀ b ∈ bs, b ≠ 0x2A ∧ b ≠ 0x3F ∧ b ≠ 0x5C) (p : Bytes) :
    pieces (bs ++ p) = bs.map Piece.octet ++ pieces p := by
  induction bs with
  | nil => rfl
  | cons b bs ih =>
    obtain ⟨hstar, hone, hescape⟩ := h b List.mem_cons_self
    rw [List.cons_append, pieces_cons_octet hstar hone hescape,
      ih fun c hc ↦ h c (List.mem_cons_of_mem b hc), List.map_cons, List.cons_append]

/-- A character that is plain has plain octets. -/
theorem octets_of_isPlain {c : Char} (h : IsPlain c) {b : UInt8}
    (hb : b ∈ String.utf8EncodeChar c) : b ≠ 0x2A ∧ b ≠ 0x3F ∧ b ≠ 0x5C := by
  have hne : ∀ d : Char, d.toNat < 128 → c ≠ d → b.toNat ≠ d.toNat := by
    intro d hd hcd heq
    rcases mem_utf8EncodeChar hb with hsame | hbeyond
    · exact hcd (Char.toNat_inj.mp (hsame.symm.trans heq))
    · omega
  refine ⟨?star, ?one, ?escape⟩
  case star => exact fun heq ↦ hne '*' (by decide) h.1 (congrArg UInt8.toNat heq)
  case one => exact fun heq ↦ hne '?' (by decide) h.2.1 (congrArg UInt8.toNat heq)
  case escape => exact fun heq ↦ hne '\\' (by decide) h.2.2 (congrArg UInt8.toNat heq)

theorem octets_flatMap_of_isPlain {cs : List Char} (h : ∀ c ∈ cs, IsPlain c) {b : UInt8}
    (hb : b ∈ cs.flatMap String.utf8EncodeChar) : b ≠ 0x2A ∧ b ≠ 0x3F ∧ b ≠ 0x5C := by
  obtain ⟨c, hc, hbc⟩ := List.mem_flatMap.mp hb
  exact octets_of_isPlain (h c hc) hbc

/-- Behind a backslash every character stands for itself. -/
theorem pieces_escape (c : Char) (p : Bytes) :
    pieces (0x5C :: (String.utf8EncodeChar c ++ p))
      = (String.utf8EncodeChar c).map Piece.octet ++ pieces p := by
  by_cases hc : IsPlain c
  · obtain ⟨b, bs, hoctets⟩ := List.exists_cons_of_ne_nil (String.utf8EncodeChar_ne_nil (c := c))
    have hbs : ∀ x ∈ bs, x ≠ 0x2A ∧ x ≠ 0x3F ∧ x ≠ 0x5C := fun x hx ↦
      octets_of_isPlain hc (hoctets ▸ List.mem_cons_of_mem b hx)
    rw [hoctets, List.cons_append, pieces_escaped, pieces_append hbs, List.map_cons,
      List.cons_append]
  · have hspecial : c = '*' ∨ c = '?' ∨ c = '\\' := by
      simpa only [IsPlain, Decidable.not_and_iff_not_or_not, Decidable.not_not, ne_eq] using hc
    rcases hspecial with rfl | rfl | rfl <;> rfl

/-! ## Matching with a star at the end -/

theorem accepts_any (key : Bytes) : accepts [.any] key = true := by
  induction key with
  | nil => rfl
  | cons b key ih => rw [accepts_cons_any, ih, Bool.or_true]

/-- A star may stand for nothing. -/
theorem accepts_cons_any_of {ps : List Piece} {key : Bytes} (h : accepts ps key = true) :
    accepts (.any :: ps) key = true := by
  cases key with
  | nil => rw [accepts_cons_nil, h]; rfl
  | cons b key => rw [accepts_cons_any, h, Bool.true_or]

theorem accepts_octets_append {bs : Bytes} {ps : List Piece} {key : Bytes} :
    accepts (bs.map Piece.octet ++ ps) key = true ↔
      ∃ rest, key = bs ++ rest ∧ accepts ps rest = true := by
  induction bs generalizing key with
  | nil => simp
  | cons b bs ih =>
    rw [List.map_cons, List.cons_append, accepts_octet_iff]
    simp only [ih]
    constructor
    · rintro ⟨_, rfl, rest, rfl, h⟩
      exact ⟨rest, rfl, h⟩
    · rintro ⟨rest, rfl, h⟩
      exact ⟨bs ++ rest, rfl, rest, rfl, h⟩

variable {lead key : String}

/-- **Plain leads.** With a star behind it, a plain text stands for what begins with it. -/
theorem isMatch_star_iff (h : ∀ c ∈ lead.toList, IsPlain c) :
    isMatch (lead ++ "*") key = true ↔ Text.startsWith key lead = true := by
  have hplain : ∀ b ∈ utf8 lead, b ≠ 0x2A ∧ b ≠ 0x3F ∧ b ≠ 0x5C := fun b hb ↦ by
    rw [← String.ofList_toList (s := lead), utf8_ofList] at hb
    exact octets_flatMap_of_isPlain h hb
  have hstar : pieces (utf8 "*") = [.any] := rfl
  rw [isMatch, utf8_append, pieces_append hplain, hstar, accepts_octets_append,
    Text.startsWith_iff, ← utf8_prefix_iff]
  constructor
  · rintro ⟨rest, h, -⟩
    exact ⟨rest, h.symm⟩
  · rintro ⟨rest, h⟩
    exact ⟨rest, h.symm, accepts_any rest⟩

/-- A pattern without a backslash stands at least for itself with anything behind it. -/
theorem accepts_self_append {bs : Bytes} (h : ∀ b ∈ bs, b ≠ 0x5C) (rest : Bytes) :
    accepts (pieces (bs ++ [0x2A])) (bs ++ rest) = true := by
  induction bs with
  | nil => exact accepts_any rest
  | cons b bs ih =>
    have hbs := ih fun c hc ↦ h c (List.mem_cons_of_mem b hc)
    rw [List.cons_append, List.cons_append]
    by_cases hstar : b = 0x2A
    · rw [hstar, pieces_star, accepts_cons_any, accepts_cons_any_of hbs, Bool.or_true]
    · by_cases hone : b = 0x3F
      · rw [hone, pieces_one, accepts_cons_one, hbs]
      · rw [pieces_cons_octet hstar hone (h b List.mem_cons_self), accepts_cons_octet, hbs]
        simp

theorem isMatch_star_of_startsWith (h : '\\' ∉ lead.toList)
    (hk : Text.startsWith key lead = true) : isMatch (lead ++ "*") key = true := by
  obtain ⟨rest, hrest⟩ := utf8_prefix_iff.mpr (Text.startsWith_iff.mp hk)
  have hescape : ∀ b ∈ utf8 lead, b ≠ 0x5C := by
    rintro b hb rfl
    rw [← String.ofList_toList (s := lead), utf8_ofList] at hb
    obtain ⟨c, hc, hbc⟩ := List.mem_flatMap.mp hb
    rcases mem_utf8EncodeChar hbc with hsame | hbeyond
    · have hc' : c = '\\' := Char.toNat_inj.mp hsame.symm
      exact h (hc' ▸ hc)
    · exact absurd hbeyond (by decide)
  rw [isMatch, utf8_append, ← hrest]
  exact accepts_self_append hescape rest

/-! ## Samples -/

/-- A key that a text with a star behind it stands for. -/
def sample : List Char → List Char
  | [] => []
  | ['\\'] => ['*']
  | '*' :: p => sample p
  | '?' :: p => '!' :: sample p
  | '\\' :: c :: p => c :: sample p
  | c :: p => c :: sample p

theorem length_sample_le (p : List Char) : (sample p).length ≤ p.length := by
  fun_induction sample p with
  | case1 | case2 => exact Nat.le_refl _
  | case3 p ih => exact Nat.le_succ_of_le ih
  | case4 p ih => exact Nat.succ_le_succ ih
  | case5 c p ih => exact Nat.succ_le_succ (Nat.le_succ_of_le ih)
  | case6 c p _ _ _ _ ih => exact Nat.succ_le_succ ih

/-- What the last case of `sample` leaves is plain. -/
theorem isPlain_of_otherwise {c : Char} {p : List Char} (hlast : c = '\\' → p = [] → False)
    (hstar : c = '*' → False) (hone : c = '?' → False)
    (hescape : ∀ d q, c = '\\' → p = d :: q → False) : IsPlain c := by
  refine ⟨hstar, hone, fun hc ↦ ?_⟩
  cases p with
  | nil => exact hlast hc rfl
  | cons d q => exact hescape d q hc rfl

theorem accepts_sample (p : List Char) :
    accepts (pieces (p.flatMap String.utf8EncodeChar ++ [0x2A]))
      ((sample p).flatMap String.utf8EncodeChar) = true := by
  fun_induction sample p with
  | case1 => rfl
  | case2 => rfl
  | case3 p ih =>
    have hoctet : String.utf8EncodeChar '*' = [0x2A] := rfl
    rw [List.flatMap_cons, hoctet, List.cons_append, List.nil_append, List.cons_append, pieces_star]
    exact accepts_cons_any_of ih
  | case4 p ih =>
    have hone : String.utf8EncodeChar '?' = [0x3F] := rfl
    have hmark : String.utf8EncodeChar '!' = [0x21] := rfl
    rw [List.flatMap_cons, List.flatMap_cons, hone, hmark, List.cons_append, List.nil_append,
      List.cons_append, pieces_one, List.cons_append, List.nil_append, accepts_cons_one]
    exact ih
  | case5 c p ih =>
    have hescape : String.utf8EncodeChar '\\' = [0x5C] := rfl
    rw [List.flatMap_cons, List.flatMap_cons, List.flatMap_cons, hescape, List.cons_append,
      List.nil_append, List.cons_append, List.append_assoc, pieces_escape, accepts_octets_append]
    exact ⟨_, rfl, ih⟩
  | case6 c p hlast hstar hone hescape ih =>
    have hc := isPlain_of_otherwise hlast hstar hone hescape
    rw [List.flatMap_cons, List.flatMap_cons, List.append_assoc,
      pieces_append fun b ↦ octets_of_isPlain hc, accepts_octets_append]
    exact ⟨_, rfl, ih⟩

theorem not_prefix_sample {p : List Char} (h : ∃ c ∈ p, ¬ IsPlain c) : ¬ p <+: sample p := by
  fun_induction sample p with
  | case1 => simp at h
  | case2 => decide
  | case3 p ih =>
    intro hp
    exact Nat.not_succ_le_self _ (Nat.le_trans hp.length_le (length_sample_le p))
  | case4 p ih => 
    intro hp
    exact absurd (List.cons_prefix_cons.mp hp).1 (by decide)
  | case5 c p ih => 
    intro hp
    obtain ⟨rfl, hp⟩ := List.cons_prefix_cons.mp hp
    exact Nat.not_succ_le_self _ (Nat.le_trans hp.length_le (length_sample_le p))
  | case6 c p hlast hstar hone hescape ih =>
    intro hp
    have hc := isPlain_of_otherwise hlast hstar hone hescape
    obtain ⟨d, hd, hspecial⟩ := h
    rcases List.mem_cons.mp hd with rfl | hd
    · exact hspecial hc
    · exact ih ⟨d, hd, hspecial⟩ (List.cons_prefix_cons.mp hp).2

/-- **Other leads.** With a star behind it, a text that is not plain stands for something that does
not begin with it. -/
theorem exists_isMatch_star (h : ∃ c ∈ lead.toList, ¬ IsPlain c) :
    ∃ key, isMatch (lead ++ "*") key = true ∧ ¬ Text.startsWith key lead = true := by
  refine ⟨String.ofList (sample lead.toList), ?_, ?_⟩
  · have hstar : utf8 "*" = [0x2A] := rfl
    have hlead : utf8 lead = lead.toList.flatMap String.utf8EncodeChar := by
      rw [← utf8_ofList, String.ofList_toList]
    rw [isMatch, utf8_append, hlead, hstar, utf8_ofList]
    exact accepts_sample lead.toList
  · rw [Text.startsWith_iff, String.toList_ofList]
    exact not_prefix_sample h

end Glob

/-! ## The purge -/

namespace Settings

/-- Whether a purge takes the keys of the cache's space from a memory store, and no others. -/
def PurgesExactly (s : Settings) : Prop :=
  ∀ (m : MemoryStore) (now later : Instant) (key : String),
    (m.deleteByPattern now s.purgePattern).2.live? later key =
      if Text.startsWith key s.cacheSpace = true then none else m.live? later key

/-- How the keys that a purge takes relate to the keys of the cache's space. -/
structure PurgeScope (s : Settings) : Prop where
  /-- The responses that are cached have keys of the space. -/
  stored : ∀ method path query subject,
    Text.startsWith (Cache.key s.cacheSpace method path query subject) s.cacheSpace = true
  /-- The pattern means the space, the purge takes the space, and the name of the space is plain:
  each of these is as good as the others. -/
  precise : List.TFAE
    [∀ c ∈ s.cacheSpace.toList, Glob.IsPlain c,
      ∀ key, Glob.isMatch s.purgePattern key = true ↔ Text.startsWith key s.cacheSpace = true,
      s.PurgesExactly]
  /-- If the name has no backslash, then at least nothing of the space is left out. -/
  covers : '\\' ∉ s.cacheSpace.toList →
    ∀ key, Text.startsWith key s.cacheSpace = true → Glob.isMatch s.purgePattern key = true

theorem startsWith_key (space method path query : String) (subject : Option String) :
    Text.startsWith (Cache.key space method path query subject) space = true := by
  rw [Text.startsWith_iff, Cache.key, String.toList_append]
  exact List.prefix_append _ _

/-- A purge that takes what it should from a store of one key decides whether the key matches. -/
theorem isMatch_iff_of_purgesExactly {s : Settings} (h : s.PurgesExactly) (key : String) :
    Glob.isMatch s.purgePattern key = true ↔ Text.startsWith key s.cacheSpace = true := by
  have hone := h ((MemoryStore.new 0).set 0 key [] 1) 0 0 key
  rw [MemoryStore.live?_deleteByPattern, MemoryStore.live?_set _ _ (Nat.le_refl 0), if_pos rfl,
    Entry.filter_isLive_of_lt Nat.one_pos] at hone
  split_ifs at hone with hmatch hbegins hbegins
  · exact iff_of_true hmatch hbegins
  · exact iff_of_false hmatch hbegins

theorem purgePattern_scope (s : Settings) : s.PurgeScope where
  stored := startsWith_key s.cacheSpace
  covers hescape _ := Glob.isMatch_star_of_startsWith hescape
  precise := by
    tfae_have 1 → 2 := fun hplain _ ↦ Glob.isMatch_star_iff hplain
    tfae_have 2 → 3 := by
      intro hmatch m now later key
      rw [MemoryStore.live?_deleteByPattern]
      simp only [hmatch]
    tfae_have 3 → 1 := by
      intro hpurge c hc
      refine Decidable.byContradiction fun hspecial ↦ ?_
      obtain ⟨key, hmatch, hbegins⟩ := Glob.exists_isMatch_star ⟨c, hc, hspecial⟩
      exact hbegins ((isMatch_iff_of_purgesExactly hpurge key).mp hmatch)
    tfae_finish

/-- With a backslash at its end, a name makes of the star an ordinary character: the settings are
accepted, the response to a request is stored under the name, and the purge does not reach it. -/
theorem not_purged_backslash :
    let s := { default with cacheSpace := "cache\\" }
    let key := Cache.key s.cacheSpace "GET" "/stats" "" none
    s.fault? = none ∧ Text.startsWith key s.cacheSpace = true ∧
      Glob.isMatch s.purgePattern key = false := by
  decide +kernel

end Settings

end Gatehouse
