import Gatehouse.Proofs.Base64
import Gatehouse.Proofs.Json.Record
import Gatehouse.Token

/-!
# The parts of a token

A token is cut at its last two points, and neither the signature nor the payload holds one; so the
cut is the only one there is, `split?_eq_some_iff`. A part that can be read is the one text in
base 64 of its octets, `readPart_eq_ok_iff`, and so is a signature.

What a header and a payload have to say is stated through their fields: the header names an
algorithm in its field `alg`, and the expiry is the integer in the field `exp`.
-/

namespace Gatehouse

/-! ## The last cut -/

theorem Text.cutLast?_eq_some_iff {sep : Char} {s a b : String} :
    Text.cutLast? sep s = some (a, b) ↔
      s.toList = a.toList ++ sep :: b.toList ∧ sep ∉ b.toList := by
  constructor
  · intro h
    have hsplit := List.takeWhile_append_dropWhile (p := (· != sep)) (l := s.toList.reverse)
    rw [cutLast?] at h
    split at h
    · cases h
    · rename_i c rest hdrop
      cases h
      have hsep : c = sep := by
        have hhead := List.head?_dropWhile_not (· != sep) s.toList.reverse
        simpa [hdrop] using hhead
      rw [hdrop, hsep] at hsplit
      refine ⟨?_, fun hmem ↦ ?_⟩
      · have hs := congrArg List.reverse hsplit
        simpa using hs.symm
      · rw [String.toList_ofList, List.mem_reverse] at hmem
        simpa using List.all_eq_true.mp List.all_takeWhile sep hmem
  · rintro ⟨hs, hsep⟩
    have hall : ∀ c ∈ b.toList.reverse, (c != sep) = true := by
      intro c hc
      rw [List.mem_reverse] at hc
      exact bne_iff_ne.mpr fun heq ↦ hsep (heq ▸ hc)
    have hrev : s.toList.reverse = b.toList.reverse ++ sep :: a.toList.reverse := by simp [hs]
    rw [cutLast?, hrev, List.dropWhile_append_of_pos hall, List.takeWhile_append_of_pos hall]
    simp

/-! ## Claims -/

/-- Claims are read back from their own record, if their times fit a word. -/
theorem Claims.ofJson?_toJson {c : Claims}
    (hexp : -(maxSigned 64 : Int) - 1 ≤ c.exp ∧ c.exp ≤ maxSigned 64)
    (hiat : -(maxSigned 64 : Int) - 1 ≤ c.iat ∧ c.iat ≤ maxSigned 64) :
    Claims.ofJson? c.toJson = some c := by
  have hrecord : c.toJson.record? ["sub", "exp", "iat"]
      = some [("sub", .ofText c.sub), ("exp", .int c.exp), ("iat", .int c.iat)] := by
    rw [Claims.toJson, Json.record?_object]
    rfl
  simp [Claims.ofJson?, hrecord, Json.Record.field?, Json.int64?_int hexp, Json.int64?_int hiat]

namespace Token

/-- A text is cut at a point where it is joined, if there is none behind. -/
theorem cutLast?_point_eq_some_iff {s a b : String} :
    Text.cutLast? '.' s = some (a, b) ↔ s = a ++ "." ++ b ∧ '.' ∉ b.toList := by
  have hglue : s.toList = a.toList ++ '.' :: b.toList ↔ s = a ++ "." ++ b := by
    simp [← String.toList_inj]
  rw [Text.cutLast?_eq_some_iff, hglue]

theorem split?_eq_some_iff {token header claims sig : String} :
    split? token = some (header, claims, sig) ↔
      token = header ++ "." ++ claims ++ "." ++ sig ∧ '.' ∉ claims.toList ∧ '.' ∉ sig.toList := by
  constructor
  · intro h
    rw [split?] at h
    split at h
    · cases h
    · rename_i message signature houter
      split at h
      · cases h
      · rename_i _ _ hinner
        cases h
        rw [cutLast?_point_eq_some_iff] at houter hinner
        exact ⟨hinner.1 ▸ houter.1, hinner.2, houter.2⟩
  · rintro ⟨htoken, hclaims, hsig⟩
    have houter : Text.cutLast? '.' token = some (header ++ "." ++ claims, sig) :=
      cutLast?_point_eq_some_iff.mpr ⟨htoken, hsig⟩
    have hinner : Text.cutLast? '.' (header ++ "." ++ claims) = some (header, claims) :=
      cutLast?_point_eq_some_iff.mpr ⟨rfl, hclaims⟩
    simp only [split?, houter, hinner]

/-! ## Texts in base 64 -/

theorem point_not_mem_encode (b : Bytes) : '.' ∉ (Base64.urlSafe.encode b).toList := by
  intro hmem
  obtain ⟨n, hn, hpoint⟩ := Base64.Variant.exists_char_of_mem_encode rfl hmem
  have hnone : ∀ n < 64, '.' ≠ Base64.urlSafe.char n := by decide
  exact hnone n hn hpoint

theorem point_not_mem_signature (secret message : String) :
    '.' ∉ (signature secret message).toList := point_not_mem_encode _

theorem readPart_eq_ok_iff {s : String} {v : Json} :
    readPart s = .ok v ↔ ∃ b, s = Base64.urlSafe.encode b ∧ Json.parse? b = some v := by
  have hdecode : ∀ b, Base64.urlSafe.decode? s = some b ↔ s = Base64.urlSafe.encode b :=
    fun b ↦ Base64.Variant.decode?_eq_some_iff Base64.Variant.faithful_urlSafe
  constructor
  · intro h
    rw [readPart] at h
    split at h
    · cases h
    · rename_i b hb
      split at h
      · cases h
      · rename_i w hw
        cases h
        exact ⟨b, (hdecode b).mp hb, hw⟩
  · rintro ⟨b, hb, hparse⟩
    simp only [readPart, (hdecode b).mpr hb, hparse]

/-! ## What the parts say -/

/-- The fields of a header. -/
def headerFields : List String :=
  ["typ", "alg", "cty", "jku", "jwk", "kid", "x5u", "x5c", "x5t", "x5t#S256"]

/-- A value has a field, read as a record with the given names. -/
def HasField (v : Json) (names : List String) (name : String) (x : Json) : Prop :=
  ∃ r, v.record? names = some r ∧ r.field? name = some x

/-- A value is a name: the text itself, or an object whose only field has this name and is null. -/
def IsName (v : Json) (name : String) : Prop :=
  v.text? = some name ∨ ∃ k, v = .obj [(k, .null)] ∧ k.text? = some name

/-- A header names an algorithm. -/
def NamesAlgorithm (header : Json) (name : String) : Prop :=
  ∃ v, HasField header headerFields "alg" v ∧ IsName v name

/-- The claims that a payload makes end at some time. -/
def ExpiresAt (payload : Json) (n : Int) : Prop :=
  HasField payload ["sub", "exp", "iat"] "exp" (.int n)

theorem nameBy?_isNull_eq_some_iff {v : Json} {name : String} :
    nameBy? isNull v = some name ↔ IsName v name := by
  rw [IsName]
  match v with
  | .null | .bool _ | .int _ | .real _ | .arr _ => simp [nameBy?, Json.text?]
  | .str s => simp [nameBy?, Json.text?]
  | .obj [] | .obj (_ :: _ :: _) => simp [nameBy?, Json.text?]
  | .obj [(k, w)] => cases w <;> simp [nameBy?, Json.text?, isNull]

theorem namesAlgorithm_of_headerAlgorithm? {header : Json} {name : String}
    (h : headerAlgorithm? header = some name) : NamesAlgorithm header name := by
  simp only [headerAlgorithm?, bind, Option.bind_eq_some_iff] at h
  obtain ⟨r, hr, v, hv, alg, halg, _, -, _, -, _, -, hpure⟩ := h
  cases hpure
  rw [nameAmong?, Option.filter_eq_some_iff] at halg
  exact ⟨v, ⟨r, hr, hv⟩, nameBy?_isNull_eq_some_iff.mp halg.1⟩

theorem expiresAt_of_ofJson? {payload : Json} {c : Claims} (h : Claims.ofJson? payload = some c) :
    ExpiresAt payload c.exp := by
  simp only [Claims.ofJson?, bind, Option.bind_eq_some_iff] at h
  obtain ⟨r, hr, _, -, _, -, v, hv, exp, hexp, _, -, _, -, hpure⟩ := h
  cases hpure
  have hint : v = .int exp := by
    cases v with
    | int n =>
      rw [Json.int64?, Json.intIn?] at hexp
      split_ifs at hexp
      exact congrArg Json.int (Option.some.inj hexp)
    | null | bool _ | real _ | str _ | arr _ | obj _ => cases hexp
  exact ⟨r, hr, hint ▸ hv⟩

end Token

end Gatehouse
