import Gatehouse.Proofs.Json.Record
import Gatehouse.Proofs.Redis.Server
import Gatehouse.Proofs.Text.Decimal

/-!
# Each side understands the other

Every command of a client is the order that it is meant as, and every reply of a server to such an
order is read as what it says. A number survives being written as a numeral; where a word of 64
bits is asked for, it survives up to that word.
-/

namespace Gatehouse

/-! ## Numerals -/

namespace Text

/-- A number that fits is read back from its numeral. -/
theorem readWord_repr {bits n : Nat} (h : n < wordSize bits) : readWord bits n.repr = .ok n := by
  have hdigits : AreDigits (Nat.toDigits 10 n) n :=
    ⟨Nat.toDigits_ne_nil, fun _ hc ↦ Json.isDigit_of_mem hc, Nat.ofDigitChars_ten_toDigits⟩
  rw [readWord_eq_ok_iff, Spells, Nat.repr_eq_ofList_toDigits, String.toList_ofList]
  exact ⟨.inl hdigits, Nat.le_sub_one_of_lt h⟩

end Text

namespace Redis

theorem integer?_utf8_repr (n : Nat) : Json.integer? (utf8 n.repr) = some (n : Int) := by
  rw [Json.utf8_repr, Json.integer?_integerOctets]

/-! ## Commands -/

theorem parse?_multi : Request.parse? (command ["MULTI"]) = some .multi := if_pos rfl

theorem parse?_exec : Request.parse? (command ["EXEC"]) = some .exec := by
  simp [Request.parse?, command, utf8_inj]

theorem parse?_get (key : String) :
    Request.parse? (command ["GET", key]) = some (.order (.get (utf8 key))) := by
  simp [Request.parse?, command, Order.parse?, ofUtf8?_utf8]

theorem parse?_setEx (key : String) (secs : Nat) (value : Bytes) :
    Request.parse? [utf8 "SETEX", utf8 key, utf8 secs.repr, value] =
      some (.order (.setEx (utf8 key) secs value)) := by
  simp [Request.parse?, command, Order.parse?, ofUtf8?_utf8, integer?_utf8_repr]

theorem parse?_incrBy (key : String) :
    Request.parse? (command ["INCRBY", key, "1"]) = some (.order (.incrBy (utf8 key) 1)) := by
  have hone : Json.integer? (utf8 "1") = some 1 := integer?_utf8_repr 1
  simp [Request.parse?, command, Order.parse?, ofUtf8?_utf8, hone]

theorem parse?_expire (key : String) (window : Duration) (policy : ExpiryPolicy) :
    Request.parse? (expire key window policy) =
      some (.order (.expire (utf8 key) (expirySecs window) (policy = .fixed))) := by
  cases policy <;>
    simp [Request.parse?, expire, command, Order.parse?, ofUtf8?_utf8, integer?_utf8_repr]

theorem parse?_scan (cursor : Nat) (pattern : String) :
    Request.parse? (scan cursor pattern) = some (.order (.scan cursor (utf8 pattern))) := by
  simp [Request.parse?, scan, command, Order.parse?, ofUtf8?_utf8, integer?_utf8_repr]

theorem parse?_del {keys : List String} (h : keys ≠ []) :
    Request.parse? (del keys) = some (.order (.del (keys.map utf8))) := by
  obtain ⟨key, more, rfl⟩ := List.exists_cons_of_ne_nil h
  simp [Request.parse?, del, command, Order.parse?, ofUtf8?_utf8]

/-! ## Replies -/

namespace Reply

theorem errorAmong?_map_bulk (items : List Bytes) : errorAmong? (items.map .bulk) = none := by
  induction items with
  | nil => rfl
  | cons b items ih =>
    rw [List.map_cons, errorAmong?, ih]
    rfl

theorem word?_int (bits n : Nat) : word? bits (.int n) = some (n % wordSize bits) := by
  rw [word?, ← Int.natCast_emod, Int.toNat_natCast]

/-- A cursor is read back from its numeral. -/
theorem word?_integerOctets {n : Nat} (h : n < wordSize 64) :
    word? 64 (.bulk (Json.integerOctets n)) = some n := by
  rw [word?, ← Json.utf8_repr, ofUtf8?_utf8, Option.bind_some, Text.readWord_repr h]
  rfl

theorem mapM_text?_bulk (keys : List String) :
    (keys.map fun key ↦ bulk (utf8 key)).mapM text? = some keys := by
  induction keys with
  | nil => rfl
  | cons key keys ih => rw [List.map_cons, List.mapM_cons, ih, text?, ofUtf8?_utf8]; rfl

end Reply

theorem understood_ok {α : Type} {read? : Reply → Option α} {r : Reply} {a : α}
    (hsound : r.error? = none) (hread : read? r = some a) : understood read? r = .ok a := by
  rw [understood, hsound, hread]

theorem understood_octets? (b : Option Bytes) :
    understood Reply.octets? (b.elim .nil .bulk) = .ok b := by
  cases b <;> rfl

theorem understood_word? (n : Nat) : understood (Reply.word? 64) (.int n) = .ok (wrapped n) :=
  understood_ok rfl (Reply.word?_int 64 n)

/-- Of the replies to the orders of a transaction, the first one is the count. -/
theorem understood_transactionCount? (n : Nat) (m : Int) :
    understood Reply.transactionCount? (.array [.int n, .int m]) = .ok (wrapped n) :=
  understood_ok rfl (Reply.word?_int 64 n)

theorem understood_page? {next : Nat} (h : next < wordSize 64) (keys : List String) :
    understood Reply.page?
        (.array [.bulk (Json.integerOctets next), .array ((keys.map utf8).map .bulk)]) =
      .ok (next, keys) := by
  have hkeys : (Reply.array ((keys.map utf8).map .bulk)).texts? = some keys := by
    rw [Reply.texts?, List.map_map]
    exact Reply.mapM_text?_bulk keys
  refine understood_ok ?_ ?_
  · have hsound := Reply.errorAmong?_map_bulk (keys.map utf8)
    simp [Reply.error?, Reply.errorAmong?, -List.map_map, hsound]
  · rw [Reply.page?, Reply.word?_integerOctets h, hkeys]

end Redis

end Gatehouse
