import Mathlib.Data.Nat.Digits.Defs
import Gatehouse.Context
import Gatehouse.Cache.Key

/-!
# Counters of peers and keys of responses

A site keeps counters and responses in one store, under keys whose beginnings are set by whoever
runs it, so the beginnings need not tell them apart. The ends do. The key of a response ends with
the sixty-four hexadecimal digits of a digest. The counter of a peer ends with the text of its
address, in which a colon, a dot or a letter that is no digit stands close to the end:
`marked_peerText`. So no response is ever stored in the place of a peer's counter,
**`Cache.key_ne_append_peerText`**.
-/

namespace Gatehouse

/-! ## Digests -/

theorem length_sha256 (b : Bytes) : (Digest.sha256 b).length = 32 := rfl

theorem length_hex (b : Bytes) : (hex b).toList.length = 2 * b.length := by
  rw [hex, String.toList_ofList]
  induction b with
  | nil => rfl
  | cons x b ih =>
    rw [List.flatMap_cons, List.length_append, ih, List.length_cons]
    simp only [List.length_cons, List.length_nil]
    omega

theorem exists_eq_hexDigit {b : Bytes} {c : Char} (hc : c ∈ (hex b).toList) :
    ∃ n < 16, c = hexDigit n := by
  rw [hex, String.toList_ofList, List.mem_flatMap] at hc
  obtain ⟨x, -, hc⟩ := hc
  have hx := x.toNat_lt
  rcases List.mem_cons.mp hc with rfl | hc
  · exact ⟨_, by omega, rfl⟩
  · exact ⟨_, by omega, List.mem_singleton.mp hc⟩

/-! ## Marks -/

/-- Close to the end of the text stands a character that is no small hexadecimal digit. -/
def Marked (cs : List Char) : Prop :=
  ∃ before mark after, cs = before ++ mark :: after ∧ (∀ n < 16, mark ≠ hexDigit n) ∧
    after.length < 5

theorem Marked.append {cs : List Char} (h : Marked cs) (front : List Char) :
    Marked (front ++ cs) := by
  obtain ⟨before, mark, after, rfl, hmark, hafter⟩ := h
  exact ⟨front ++ before, mark, after, by rw [List.append_assoc], hmark, hafter⟩

/-- Short texts, each behind a mark. -/
theorem marked_intercalate {sep : String} {mark : Char} (hsep : sep.toList = [mark])
    (hmark : ∀ n < 16, mark ≠ hexDigit n) {texts : List String}
    (hshort : ∀ s ∈ texts, s.toList.length < 5) :
    Marked (mark :: (sep.intercalate texts).toList) := by
  induction texts with
  | nil => exact ⟨[], mark, [], by simp, hmark, by decide⟩
  | cons s texts ih =>
    obtain ⟨hs, htexts⟩ := List.forall_mem_cons.mp hshort
    cases texts with
    | nil =>
      rw [String.intercalate_singleton]
      exact ⟨[], mark, s.toList, rfl, hmark, hs⟩
    | cons s' texts =>
      rw [String.intercalate_cons_cons, String.toList_append, String.toList_append, hsep,
        List.append_assoc, ← List.cons_append]
      exact (ih htexts).append _

/-- Several short texts with marks between them. -/
theorem marked_intercalate_cons_cons {sep : String} {mark : Char} (hsep : sep.toList = [mark])
    (hmark : ∀ n < 16, mark ≠ hexDigit n) {s s' : String} {texts : List String}
    (hshort : ∀ s ∈ s' :: texts, s.toList.length < 5) :
    Marked (sep.intercalate (s :: s' :: texts)).toList := by
  rw [String.intercalate_cons_cons, String.toList_append, String.toList_append, hsep,
    List.append_assoc]
  exact (marked_intercalate hsep hmark hshort).append _

/-! ## Addresses -/

namespace Net

theorem colon_ne_hexDigit : ∀ n < 16, ':' ≠ hexDigit n := by decide

theorem dot_ne_hexDigit : ∀ n < 16, '.' ≠ hexDigit n := by decide

theorem lt_of_mem_digitsOf {base : Nat} (hbase : 0 < base) {n x : Nat} :
    ∀ d ∈ digitsOf base n x, d < base := by
  induction n generalizing x with
  | zero => exact nofun
  | succ n ih =>
    intro d hd
    rcases List.mem_append.mp hd with hd | hd
    · exact ih d hd
    · rw [List.mem_singleton.mp hd]
      exact Nat.mod_lt _ hbase

theorem length_digitsOf (base n x : Nat) : (digitsOf base n x).length = n := by
  induction n generalizing x with
  | zero => rfl
  | succ n ih => rw [digitsOf, List.length_append, ih, List.length_singleton]

theorem marked_v4Text (n : Nat) : Marked (v4Text n).toList := by
  have hlt := lt_of_mem_digitsOf (n := 4) (x := n) (by decide : 0 < 256)
  have hlength := length_digitsOf 256 4 n
  rw [v4Text]
  rcases hparts : digitsOf 256 4 n with _ | ⟨a, _ | ⟨b, rest⟩⟩ <;> rw [hparts] at hlt hlength
  · cases hlength
  · cases hlength
  · refine marked_intercalate_cons_cons rfl dot_ne_hexDigit fun s hs ↦ ?_
    obtain ⟨d, hd, rfl⟩ := List.mem_map.mp (show s ∈ (b :: rest).map Nat.repr from hs)
    have hd256 := hlt d (List.mem_cons_of_mem a hd)
    have hrepr : d.repr.length ≤ 3 := (Nat.length_repr_le_iff (by decide)).mpr (by omega)
    exact Nat.lt_succ_of_le (Nat.le_succ_of_le hrepr)

theorem length_groupText {g : Nat} (hg : g < 65536) : (groupText g).toList.length < 5 := by
  rw [groupText, String.toList_ofList]
  exact Nat.lt_succ_of_le (Nat.toDigits_length 16 g 4 (by decide) hg)

theorem marked_groupsText {gs : List Nat} (hgs : ∀ g ∈ gs, g < 65536) :
    Marked (':' :: (groupsText gs).toList) := by
  refine marked_intercalate rfl colon_ne_hexDigit fun s hs ↦ ?_
  obtain ⟨g, hg, rfl⟩ := List.mem_map.mp hs
  exact length_groupText (hgs g hg)

theorem mem_of_mem_cutZeros_snd {length : Nat} {gs : List Nat} :
    ∀ g ∈ (cutZeros length gs).2, g ∈ gs := by
  induction gs with
  | nil => exact nofun
  | cons g gs ih =>
    rw [cutZeros]
    split
    · exact fun d hd ↦ List.mem_of_mem_drop hd
    · exact fun d hd ↦ List.mem_cons_of_mem g (ih d hd)

theorem marked_v6Text {gs : List Nat} (hlength : 2 ≤ gs.length) (hgs : ∀ g ∈ gs, g < 65536) :
    Marked (v6Text gs).toList := by
  unfold v6Text
  split
  · rw [String.toList_append]
    exact (marked_v4Text _).append _
  dsimp only
  split
  · rcases gs with _ | ⟨g, _ | ⟨g', gs⟩⟩
    · cases hlength
    · exact absurd hlength (Nat.not_succ_le_self 1)
    · refine marked_intercalate_cons_cons rfl colon_ne_hexDigit fun s hs ↦ ?_
      obtain ⟨d, hd, rfl⟩ := List.mem_map.mp (show s ∈ (g' :: gs).map groupText from hs)
      exact length_groupText (hgs d (List.mem_cons_of_mem g hd))
  -- the last groups stand behind the gap, if there are any
  · have hafter : Marked (':' :: (groupsText (cutZeros (longestZeros gs) gs).2).toList) :=
      marked_groupsText fun g hg ↦ hgs g (mem_of_mem_cutZeros_snd g hg)
    rw [String.toList_append, String.toList_append, List.append_assoc]
    exact (hafter.append [':']).append _

theorem Address.marked_text (a : Address) : Marked a.text.toList := by
  cases a with
  | v4 bits => exact marked_v4Text _
  | v6 bits =>
    refine marked_v6Text ?_ (lt_of_mem_digitsOf (by decide))
    rw [length_digitsOf]
    decide

end Net

theorem marked_peerText (peer : Option Net.Address) : Marked (peerText peer).toList := by
  cases peer with
  | none => exact ⟨"unkno".toList, 'w', ['n'], rfl, by decide, by decide⟩
  | some a => exact a.marked_text

/-! ## Keys -/

/-- What is in a short end of a text is in every longer one. -/
theorem mem_of_append_eq_append {α : Type} {front back before after : List α} {x : α}
    (heq : front ++ back = before ++ x :: after) (hlt : after.length < back.length) :
    x ∈ back := by
  rcases List.append_eq_append_iff.mp heq with ⟨mid, -, hback⟩ | ⟨mid, -, hafter⟩
  · rw [hback]
    exact List.mem_append_right _ List.mem_cons_self
  · cases mid with
    | nil =>
      rw [List.nil_append] at hafter
      rw [← hafter]
      exact List.mem_cons_self
    | cons y mid =>
      rw [(List.cons.inj hafter).2] at hlt
      exact absurd hlt (Nat.not_lt.mpr (List.sublist_append_right mid back).length_le)

/-- **No response is stored under the key of a peer's counter.** -/
theorem Cache.key_ne_append_peerText (space method path query : String) (subject : Option String)
    (keyPrefix : String) (peer : Option Net.Address) :
    key space method path query subject ≠ keyPrefix ++ peerText peer := by
  intro heq
  obtain ⟨before, mark, after, htext, hmark, hafter⟩ := marked_peerText peer
  have hlist := congrArg String.toList heq
  rw [key, String.toList_append, String.toList_append, htext, ← List.append_assoc] at hlist
  have hlength := length_hex (Digest.sha256 (preimage method path query subject))
  rw [length_sha256] at hlength
  have hmem := mem_of_append_eq_append hlist (by omega)
  obtain ⟨n, hn, hdigit⟩ := exists_eq_hexDigit hmem
  exact hmark n hn hdigit

end Gatehouse
