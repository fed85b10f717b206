import Gatehouse.Json.Lexer

/-!
# Tokens are read back from their spelling

The spellings of tokens stand one behind the other without blanks, and still they can be told
apart: a string ends with its closing quote, a mark is a single octet, and a word (a name or a
number) ends where an octet follows that no word may hold. **`Place.tokens?_octets`** says this of
one token with any octets behind it.

A number is read back because its digits have no needless zero in front: `integer?_integerOctets`.
A string is read back unit by unit, whatever its units mean.
-/

namespace Gatehouse.Json

/-! ## Words -/

/-- A token whose end shows only in what follows it. -/
def Token.isWord : Token → Bool
  | .null => true
  | .bool _ => true
  | .int _ => true
  | .real _ => true
  | _ => false

/-- What follows cannot be taken for more of a word. -/
def Delimited (rest : Bytes) : Prop := ∀ b ∈ rest.head?, isWordOctet b = false

/-! ### Digits -/

/-- The octet of an ASCII digit. -/
def digitOctet (c : Char) : UInt8 := UInt8.ofNat c.toNat

theorem toNat_digitOctet {c : Char} (h : c.isDigit = true) :
    (digitOctet c).toNat = c.toNat ∧ 48 ≤ c.toNat ∧ c.toNat ≤ 57 := by
  simp only [Char.isDigit, Bool.and_eq_true, decide_eq_true_eq] at h
  have hlow : 48 ≤ c.toNat := UInt32.le_iff_toNat_le.mp h.1
  have hhigh : c.toNat ≤ 57 := UInt32.le_iff_toNat_le.mp h.2
  exact ⟨UInt8.toNat_ofNat_of_lt' (show c.toNat < 256 by omega), hlow, hhigh⟩

theorem isDigit_digitOctet {c : Char} (h : c.isDigit = true) : isDigit (digitOctet c) = true := by
  obtain ⟨hnat, hlow, hhigh⟩ := toNat_digitOctet h
  simp only [isDigit, Bool.and_eq_true, decide_eq_true_eq, UInt8.le_iff_toNat_le, hnat]
  exact ⟨hlow, hhigh⟩

theorem ofNat_toNat_digitOctet {c : Char} (h : c.isDigit = true) :
    Char.ofNat (digitOctet c).toNat = c := by
  rw [(toNat_digitOctet h).1, Char.ofNat_toNat]

/-- The octets of a natural number. -/
def naturalOctets (n : Nat) : Bytes := (Nat.toDigits 10 n).map digitOctet

theorem isDigit_of_mem {n : Nat} {c : Char} (h : c ∈ Nat.toDigits 10 n) : c.isDigit = true :=
  Nat.isDigit_of_mem_toDigits (by decide) (by decide) h

theorem all_isDigit_naturalOctets (n : Nat) : (naturalOctets n).all isDigit = true := by
  rw [naturalOctets, List.all_map, List.all_eq_true]
  exact fun c hc ↦ isDigit_digitOctet (isDigit_of_mem hc)

theorem ofDigitChars_naturalOctets (n : Nat) :
    Nat.ofDigitChars 10 ((naturalOctets n).map fun d ↦ Char.ofNat d.toNat) 0 = n := by
  have hback : (naturalOctets n).map (fun d ↦ Char.ofNat d.toNat) = Nat.toDigits 10 n := by
    rw [naturalOctets, List.map_map]
    exact (List.map_congr_left fun c hc ↦ ofNat_toNat_digitOctet (isDigit_of_mem hc)).trans
      (List.map_id _)
  rw [hback, Nat.ofDigitChars_ten_toDigits]

/-- The first digit of a number that is not zero. -/
theorem head_toDigits_ne_zero {n : Nat} (hn : 0 < n) :
    (Nat.toDigits 10 n).head? ≠ some '0' := by
  induction n using Nat.strongRecOn with
  | ind n ih =>
    rw [Nat.toDigits_eq_if (by decide)]
    split
    · next hlt =>
      have hdigit : ∀ d < 10, 0 < d → d.digitChar ≠ '0' := by decide
      simpa using hdigit n hlt hn
    · next hge =>
      have hquotient := ih (n / 10) (by omega) (by omega)
      rcases hdigits : Nat.toDigits 10 (n / 10) with _ | ⟨c, rest⟩
      · exact absurd hdigits Nat.toDigits_ne_nil
      · rw [hdigits] at hquotient
        exact hquotient

theorem isWhole_naturalOctets (n : Nat) : isWhole (naturalOctets n) = true := by
  rw [naturalOctets]
  rcases hdigits : Nat.toDigits 10 n with _ | ⟨c, _ | ⟨d, rest⟩⟩
  · exact absurd hdigits Nat.toDigits_ne_nil
  · rfl
  -- zero has one digit, so a number with more of them begins with another one
  · have hpos : 0 < n := by
      rcases Nat.eq_zero_or_pos n with rfl | hpos
      · rw [Nat.toDigits_zero] at hdigits
        cases hdigits
      · exact hpos
    have hne : c ≠ '0' := by
      have hhead := head_toDigits_ne_zero hpos
      rw [hdigits] at hhead
      simpa using hhead
    have hc : c.isDigit = true := isDigit_of_mem (hdigits ▸ List.mem_cons_self)
    have hoctet : digitOctet c ≠ 0x30 := fun h ↦ by
      have hback := ofNat_toNat_digitOctet hc
      rw [h] at hback
      exact hne hback.symm
    simpa [isWhole] using hoctet

theorem unsigned_of_all_isDigit {b : Bytes} (h : b.all isDigit = true) : unsigned b = b := by
  rw [unsigned]
  rintro rest rfl
  simp [isDigit] at h

/-! ### Integers -/

theorem integerOctets_ofNat (n : Nat) : integerOctets n = naturalOctets n := by
  have hrepr : (n : Int).repr = n.repr := rfl
  rw [integerOctets, hrepr, Nat.repr_eq_ofList_toDigits, String.toList_ofList]
  rfl

theorem integerOctets_negSucc (n : Nat) :
    integerOctets (Int.negSucc n) = 0x2D :: naturalOctets (n + 1) := by
  have hrepr : (Int.negSucc n).repr = "-" ++ (n + 1).repr := rfl
  simp only [integerOctets, hrepr, Nat.repr_eq_ofList_toDigits, String.toList_append,
    String.toList_ofList, List.map_append]
  rfl

theorem integer?_integerOctets (n : Int) : integer? (integerOctets n) = some n := by
  cases n with
  | ofNat n =>
    rw [Int.ofNat_eq_natCast, integerOctets_ofNat, integer?]
    simp only
    rw [unsigned_of_all_isDigit (all_isDigit_naturalOctets n), isWhole_naturalOctets,
      all_isDigit_naturalOctets, ofDigitChars_naturalOctets]
    simp
  | negSucc n =>
    rw [integerOctets_negSucc, integer?]
    have hunsigned : unsigned (0x2D :: naturalOctets (n + 1)) = naturalOctets (n + 1) := rfl
    simp only
    rw [hunsigned, isWhole_naturalOctets, all_isDigit_naturalOctets, ofDigitChars_naturalOctets,
      Bool.and_self, if_pos rfl, if_neg (List.cons_ne_self _ _).symm, if_neg (Nat.succ_ne_zero n)]
    rfl

/-! ### Numbers that are no integers -/

theorem isWordOctet_of_isDigit {b : UInt8} (h : isDigit b = true) : isWordOctet b = true := by
  simp [isWordOctet, h]

theorem all_isWordOctet_of_all_isDigit {b : Bytes} (h : b.all isDigit = true) :
    b.all isWordOctet = true := by
  rw [List.all_eq_true] at h ⊢
  exact fun x hx ↦ isWordOctet_of_isDigit (h x hx)

theorem all_isWordOctet_of_isExponent {b : Bytes} (h : isExponent b = true) :
    b.all isWordOctet = true := by
  rcases b with _ | ⟨e, _ | ⟨s, more⟩⟩
  · rfl
  · simp [isExponent] at h
  · simp only [isExponent, Bool.and_eq_true, Bool.or_eq_true, beq_iff_eq] at h
    obtain ⟨he, -, hdigits⟩ := h
    have hletter : isWordOctet e = true := by rcases he with rfl | rfl <;> rfl
    have hrest : (s :: more).all isWordOctet = true := by
      split at hdigits
      · next hsign =>
        have hs : isWordOctet s = true := by rcases hsign with rfl | rfl <;> rfl
        rw [List.all_cons, hs, Bool.true_and]
        exact all_isWordOctet_of_all_isDigit hdigits
      · exact all_isWordOctet_of_all_isDigit hdigits
    rw [List.all_cons, hletter, hrest, Bool.and_self]

theorem all_isWordOctet_of_isTail {b : Bytes} (h : isTail b = true) :
    b.all isWordOctet = true := by
  rw [isTail.eq_def] at h
  split at h
  · next rest =>
    simp only [spanDigits, Bool.and_eq_true] at h
    have hpoint : isWordOctet 0x2E = true := rfl
    rw [List.all_cons, hpoint, Bool.true_and,
      ← List.takeWhile_append_dropWhile (p := isDigit) (l := rest), List.all_append,
      all_isWordOctet_of_all_isDigit List.all_takeWhile, all_isWordOctet_of_isExponent h.2,
      Bool.and_self]
  · exact all_isWordOctet_of_isExponent h

theorem all_isWordOctet_of_isNumeral {b : Bytes} (h : isNumeral b = true) :
    b.all isWordOctet = true := by
  simp only [isNumeral, spanDigits, Bool.and_eq_true] at h
  have hunsigned : (unsigned b).all isWordOctet = true := by
    rw [← List.takeWhile_append_dropWhile (p := isDigit) (l := unsigned b), List.all_append,
      all_isWordOctet_of_all_isDigit List.all_takeWhile, all_isWordOctet_of_isTail h.2,
      Bool.and_self]
  rw [unsigned.eq_def] at hunsigned
  split at hunsigned
  · exact hunsigned
  · exact hunsigned

/-! ### Reading a word -/

namespace Token

theorem ofWord?_octets {t : Token} (h : t.isWord = true) : ofWord? t.octets = some t := by
  cases t with
  | null => rfl
  | bool b => cases b <;> rfl
  | int n =>
    have hread := integer?_integerOctets n
    -- the names are no integers
    have hname : ∀ w, integer? w = none → integerOctets n ≠ w := by
      rintro w hnone rfl
      rw [hread] at hnone
      cases hnone
    rw [octets, ofWord?, if_neg (hname _ (by decide)), if_neg (hname _ (by decide)),
      if_neg (hname _ (by decide))]
    split
    · next m hm =>
      rw [hread] at hm
      rw [Option.some.inj hm]
    · next hnone =>
      rw [hread] at hnone
      cases hnone
  | real x =>
    have hname : ∀ w, isNumeral w = false → x.spelling ≠ w := by
      rintro w hno rfl
      rw [x.ok] at hno
      cases hno
    rw [octets, ofWord?, if_neg (hname _ (by decide)), if_neg (hname _ (by decide)),
      if_neg (hname _ (by decide))]
    split
    · next m hm =>
      rw [x.fractional] at hm
      cases hm
    · rw [dif_pos x.ok]
  | openArray | closeArray | openObject | closeObject | comma | colon | str s => cases h

theorem all_isWordOctet_octets {t : Token} (h : t.isWord = true) :
    t.octets.all isWordOctet = true := by
  cases t with
  | null => rfl
  | bool b => cases b <;> rfl
  | int n =>
    rw [octets]
    cases n with
    | ofNat n =>
      rw [Int.ofNat_eq_natCast, integerOctets_ofNat]
      exact all_isWordOctet_of_all_isDigit (all_isDigit_naturalOctets n)
    | negSucc n =>
      have hsign : isWordOctet 0x2D = true := rfl
      rw [integerOctets_negSucc, List.all_cons, hsign, Bool.true_and]
      exact all_isWordOctet_of_all_isDigit (all_isDigit_naturalOctets (n + 1))
  | real x => exact all_isWordOctet_of_isNumeral x.ok
  | openArray | closeArray | openObject | closeObject | comma | colon | str s => cases h

theorem ofWord?_nil : ofWord? [] = none := rfl

end Token

namespace Place

/-- An octet that completes no token. -/
theorem tokens?_cons_of_read {p next : Place} {b : UInt8} (h : p.read? b = some ([], next))
    (rest : Bytes) : p.tokens? (b :: rest) = next.tokens? rest := by
  rw [tokens?, h]
  exact Option.map_id_apply

/-- An octet of a word is no blank and no quote. -/
theorem enter?_of_isWordOctet {b : UInt8} (h : isWordOctet b = true) :
    enter? b = some ([], .word [b]) := by
  have hspace : isSpace b = false := by
    rw [Bool.eq_false_iff]
    intro hspace
    simp only [isSpace, Bool.or_eq_true, beq_iff_eq] at hspace
    rcases hspace with ((rfl | rfl) | rfl) | rfl <;> cases h
  have hquote : b ≠ 0x22 := by
    rintro rfl
    cases h
  simp [enter?, hspace, hquote, h]

/-- A word goes on until an octet comes that no word may hold. -/
theorem tokens?_word {t : Token} {read w rest : Bytes} (hw : w.all isWordOctet = true)
    (hrest : Delimited rest) (ht : Token.ofWord? (read.reverse ++ w) = some t) :
    (word read).tokens? (w ++ rest) = (between.tokens? rest).map (t :: ·) := by
  induction w generalizing read with
  | nil =>
    rw [List.append_nil] at ht
    rcases rest with _ | ⟨b, more⟩
    · simp [tokens?, finish?, ht]
    · have hb : isWordOctet b = false := hrest b rfl
      rw [List.nil_append, tokens?, tokens?]
      simp only [read?, hb, Bool.false_eq_true, if_false, ht]
      rcases enter? b with _ | ⟨done, next⟩
      · rfl
      · simp [Function.comp_def]
  | cons b w ih =>
    rw [List.all_cons, Bool.and_eq_true] at hw
    have hb : (word read).read? b = some ([], word (b :: read)) := by simp [read?, hw.1]
    rw [List.cons_append, tokens?_cons_of_read hb]
    exact ih hw.2 (by simpa using ht)

/-! ## Strings -/

/-- A hexadecimal digit is read back. -/
theorem hexValue?_hexDigit :
    ∀ d < 16, hexValue? (UInt8.ofNat (hexDigit d).toNat) = some d := by decide

theorem tokens?_unit (u : StrUnit) (read : Str) (rest : Bytes) :
    (string read).tokens? (u.octets ++ rest) = (string (u :: read)).tokens? rest := by
  have hbackslash : (string read).read? 0x5C = some ([], escape read) := rfl
  cases u with
  | plain b ok =>
    have hplain := ok
    simp only [isPlain, Bool.and_eq_true, bne_iff_ne] at hplain
    exact tokens?_cons_of_read (by simp [read?, hplain.1.2, hplain.2, ok]) rest
  | escape e =>
    have hletter : (escape read).read? e.letter = some ([], string (.escape e :: read)) := by
      cases e <;> rfl
    rw [StrUnit.octets, List.cons_append, List.cons_append, List.nil_append,
      tokens?_cons_of_read hbackslash, tokens?_cons_of_read hletter]
  | unicode n =>
    have hletter : (escape read).read? 0x75 = some ([], unicode read 0 0) := rfl
    have hdigit : ∀ m, hexValue? (UInt8.ofNat (hexDigit (m % 16)).toNat) = some (m % 16) :=
      fun m ↦ hexValue?_hexDigit _ (Nat.mod_lt _ (by decide))
    have hmore : ∀ digits value m, digits ≠ 3 →
        (unicode read digits value).read? (UInt8.ofNat (hexDigit (m % 16)).toNat)
          = some ([], unicode read (digits + 1) (value * 16 + m % 16)) := by
      intro digits value m hne
      simp [read?, hdigit, hne]
    have hlast : ∀ value m,
        (unicode read 3 value).read? (UInt8.ofNat (hexDigit (m % 16)).toNat)
          = some ([], string (.unicode (UInt16.ofNat (value * 16 + m % 16)) :: read)) := by
      intro value m
      simp [read?, hdigit]
    have hn := n.toNat_lt
    have hvalue : UInt16.ofNat ((((0 * 16 + n.toNat / 4096 % 16) * 16 + n.toNat / 256 % 16) * 16
        + n.toNat / 16 % 16) * 16 + n.toNat / 1 % 16) = n := by
      rw [← UInt16.toNat_inj, UInt16.toNat_ofNat_of_lt' (show _ < 65536 by omega)]
      omega
    rw [StrUnit.octets]
    simp only [List.cons_append, List.nil_append]
    rw [tokens?_cons_of_read hbackslash, tokens?_cons_of_read hletter,
      tokens?_cons_of_read (hmore _ _ _ (by decide)),
      tokens?_cons_of_read (hmore _ _ _ (by decide)),
      tokens?_cons_of_read (hmore _ _ _ (by decide)), tokens?_cons_of_read (hlast _ _), hvalue]

theorem tokens?_string (s read : Str) (rest : Bytes) :
    (string read).tokens? (s.flatMap StrUnit.octets ++ 0x22 :: rest)
      = (between.tokens? rest).map (.str (read.reverse ++ s) :: ·) := by
  induction s generalizing read with
  | nil => simp [tokens?, read?]
  | cons u s ih =>
    rw [List.flatMap_cons, List.append_assoc, tokens?_unit, ih]
    simp

/-! ## Tokens -/

theorem tokens?_of_isWord {t : Token} (h : t.isWord = true) {rest : Bytes}
    (hrest : Delimited rest) :
    between.tokens? (t.octets ++ rest) = (between.tokens? rest).map (t :: ·) := by
  have hoctets := Token.all_isWordOctet_octets h
  have hread := Token.ofWord?_octets h
  generalize t.octets = w at hoctets hread
  rcases w with _ | ⟨b, w⟩
  · exact absurd (hread.symm.trans Token.ofWord?_nil) (Option.some_ne_none t)
  · rw [List.all_cons, Bool.and_eq_true] at hoctets
    have hb : between.read? b = some ([], word [b]) := enter?_of_isWordOctet hoctets.1
    rw [List.cons_append, tokens?_cons_of_read hb]
    exact tokens?_word hoctets.2 hrest hread

/-- **A token is read back.** What follows a word has to end it. -/
theorem tokens?_octets (t : Token) {rest : Bytes} (hrest : t.isWord = true → Delimited rest) :
    between.tokens? (t.octets ++ rest) = (between.tokens? rest).map (t :: ·) := by
  cases t with
  | null | bool b | int n | real x => exact tokens?_of_isWord rfl (hrest rfl)
  | str s =>
    have hquote : between.read? 0x22 = some ([], .string []) := rfl
    rw [Token.octets, List.cons_append, List.cons_append, List.append_assoc,
      tokens?_cons_of_read hquote]
    exact tokens?_string s [] rest
  | openArray | closeArray | openObject | closeObject | comma | colon => rfl

end Place

end Gatehouse.Json
