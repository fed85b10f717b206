import Gatehouse.Json.Basic
import Gatehouse.Proofs.Glob
import Gatehouse.Redis.Client
import Gatehouse.Table

/-!
# A server

A server keeps octet strings, obeys commands one after the other and drops a key at the instant at
which its time is over. Counting begins at zero for a key that is absent and leaves its expiry
alone; an expiry is set in whole seconds, on demand only where there is none. What stands between
the opening of a transaction and its end is obeyed at the end, as one, and gets one reply. Counts
and lengths of time have no bounds.

How a server goes through its keys is its own affair: how many keys it puts on a page, in which
order, what it remembers between pages and what its cursors mean. A `Scanner` is any way of doing
so that keeps to what is documented. A `Cycle` begins with the cursor zero, and while it lasts keys
may vanish; it returns to zero in the end, and by then it has shown every matching key that is
still there. It may show a key twice, and it may show one that has vanished in the meantime. One way
of doing so, with any size of pages, is `Scanner.inPages`.
-/

namespace Gatehouse.Redis

variable {σ : Type}

/-! ## Going through the keys -/

/-- The cursor to go on with, some keys, and what the server remembers. -/
structure Page (σ : Type) where
  next : Nat
  keys : List Bytes
  state : σ

/-- Pages that are asked for one after the other, each with the cursor that came with the one
before. Between two pages keys may vanish, but none is added. -/
structure Cycle (page : σ → List Bytes → Nat → Bytes → Page σ) (pattern : Bytes) where
  state : Nat → σ
  /-- The keys that exist when a page is asked for. -/
  keys : Nat → List Bytes
  cursor : Nat → Nat
  begins : cursor 0 = 0
  shrinks : ∀ n, keys (n + 1) ⊆ keys n
  goesOn : ∀ n, cursor (n + 1) = (page (state n) (keys n) (cursor n) pattern).next
  remembers : ∀ n, state (n + 1) = (page (state n) (keys n) (cursor n) pattern).state

namespace Cycle

variable {page : σ → List Bytes → Nat → Bytes → Page σ} {pattern : Bytes}

/-- The keys on a page. -/
def shown (c : Cycle page pattern) (n : Nat) : List Bytes :=
  (page (c.state n) (c.keys n) (c.cursor n) pattern).keys

/-- With this page, and with none before it, the cursor is zero again. -/
def ReturnsAt (c : Cycle page pattern) (n : Nat) : Prop :=
  c.cursor (n + 1) = 0 ∧ ∀ m < n, c.cursor (m + 1) ≠ 0

/-- If the cursor is zero again some time, it is so for a first time. -/
theorem exists_returnsAt {c : Cycle page pattern} {n : Nat} (h : c.cursor (n + 1) = 0) :
    ∃ m, c.ReturnsAt m := by
  induction n using Nat.strongRecOn with
  | ind n ih =>
    by_cases hbefore : ∃ m < n, c.cursor (m + 1) = 0
    · obtain ⟨m, hm, hzero⟩ := hbefore
      exact ih m hm hzero
    · exact ⟨n, h, fun m hm hzero ↦ hbefore ⟨m, hm, hzero⟩⟩

end Cycle

/-- A way of going through keys. -/
structure Scanner (σ : Type) where
  /-- Whether a pattern matches a key. -/
  isMatch : Bytes → Bytes → Bool
  /-- The page for a cursor and a pattern, where these keys exist. -/
  page : σ → List Bytes → Nat → Bytes → Page σ
  isMatch_iff {pattern : Bytes} (h : Glob.isPlain pattern = true) (key : Bytes) :
    isMatch pattern key = true ↔ Glob.Matches pattern key
  next_lt (state : σ) (keys : List Bytes) (cursor : Nat) (pattern : Bytes) :
    (page state keys cursor pattern).next < wordSize 64
  /-- A cycle comes to its end. -/
  returns {pattern : Bytes} (c : Cycle page pattern) : ∃ n, c.ReturnsAt n
  /-- Only keys that match are shown, and none that was not there when the cycle began. -/
  sound {pattern : Bytes} (c : Cycle page pattern) {n m : Nat} (h : c.ReturnsAt n) (hm : m ≤ n)
    {key : Bytes} (hkey : key ∈ c.shown m) : key ∈ c.keys 0 ∧ isMatch pattern key = true
  /-- A matching key that is there to the end has been shown. -/
  complete {pattern : Bytes} (c : Cycle page pattern) {n : Nat} (h : c.ReturnsAt n) {key : Bytes}
    (hkey : key ∈ c.keys n) (hmatch : isMatch pattern key = true) : ∃ m ≤ n, key ∈ c.shown m

/-! ### Going through the keys in pages of one size -/

/-- The keys to be shown: those that match when a cycle begins, later on those that are left. -/
def outstanding (left keys : List Bytes) (cursor : Nat) (pattern : Bytes) : List Bytes :=
  if cursor = 0 then keys.filter (Glob.accepts (Glob.pieces pattern)) else left

/-- Show so many keys and remember the others. The cursor says only whether there are any. -/
def pageOf (size : Nat) (left keys : List Bytes) (cursor : Nat) (pattern : Bytes) :
    Page (List Bytes) where
  next := if (outstanding left keys cursor pattern).length ≤ size then 0 else 1
  keys := (outstanding left keys cursor pattern).take size
  state := (outstanding left keys cursor pattern).drop size

namespace Cycle

variable {size : Nat} {pattern : Bytes} (c : Cycle (pageOf size) pattern)

/-- The keys that are shown in a whole cycle. -/
def matching : List Bytes := (c.keys 0).filter (Glob.accepts (Glob.pieces pattern))

theorem outstanding_eq {n : Nat} (h : ∀ m < n, c.cursor (m + 1) ≠ 0) :
    outstanding (c.state n) (c.keys n) (c.cursor n) pattern = c.matching.drop (n * size) := by
  induction n with
  | zero =>
    rw [outstanding, if_pos c.begins, Nat.zero_mul, List.drop_zero]
    rfl
  | succ n ih =>
    have hleft := ih fun m hm ↦ h m (Nat.lt_succ_of_lt hm)
    rw [outstanding, if_neg (h n (Nat.lt_succ_self n)), c.remembers, pageOf, hleft,
      List.drop_drop, Nat.succ_mul]

theorem shown_eq {n : Nat} (h : ∀ m < n, c.cursor (m + 1) ≠ 0) :
    c.shown n = (c.matching.drop (n * size)).take size := by
  rw [shown, pageOf, c.outstanding_eq h]

theorem cursor_succ_eq_zero_iff {n : Nat} (h : ∀ m < n, c.cursor (m + 1) ≠ 0) :
    c.cursor (n + 1) = 0 ↔ c.matching.length ≤ (n + 1) * size := by
  simp only [c.goesOn, pageOf, c.outstanding_eq h, List.length_drop, Nat.succ_mul]
  split <;> omega

theorem keys_subset (n : Nat) : c.keys n ⊆ c.keys 0 := by
  induction n with
  | zero => exact List.Subset.refl _
  | succ n ih => exact List.Subset.trans (c.shrinks n) ih

end Cycle

/-- The way of going through keys in pages of one size. -/
def Scanner.inPages (size : Nat) (hsize : 0 < size) : Scanner (List Bytes) where
  isMatch pattern key := Glob.accepts (Glob.pieces pattern) key
  page := pageOf size
  isMatch_iff h key := Glob.accepts_iff_matches h key
  next_lt left keys cursor pattern := by
    have hone : 1 < wordSize 64 := by decide
    rw [pageOf]
    split
    · exact Nat.lt_of_succ_lt hone
    · exact hone
  returns c := by
    refine Classical.byContradiction fun hnever ↦ ?_
    have hmore : ∀ n, c.cursor (n + 1) ≠ 0 := fun n hzero ↦
      hnever (Cycle.exists_returnsAt hzero)
    refine hmore c.matching.length ((c.cursor_succ_eq_zero_iff fun m _ ↦ hmore m).mpr ?_)
    exact Nat.le_trans (Nat.le_succ _) (Nat.le_mul_of_pos_right _ hsize)
  sound {_} c n m h hm key hkey := by
    rw [c.shown_eq fun k hk ↦ h.2 k (Nat.lt_of_lt_of_le hk hm)] at hkey
    exact List.mem_filter.mp (List.mem_of_mem_drop (List.mem_of_mem_take hkey))
  complete {_} c n h key hkey hmatch := by
    have hmem : key ∈ c.matching := List.mem_filter.mpr ⟨c.keys_subset n hkey, hmatch⟩
    obtain ⟨j, hj, rfl⟩ := List.getElem_of_mem hmem
    have hlength := (c.cursor_succ_eq_zero_iff h.2).mp h.1
    -- the key stands on the page that its place divided by the size of pages says
    have hpage : j / size ≤ n :=
      Nat.le_of_lt_succ ((Nat.div_lt_iff_lt_mul hsize).mpr (Nat.lt_of_lt_of_le hj hlength))
    refine ⟨j / size, hpage, ?_⟩
    rw [c.shown_eq fun m hm ↦ h.2 m (Nat.lt_of_lt_of_le hm hpage), List.mem_iff_getElem?]
    refine ⟨j % size, ?_⟩
    rw [List.getElem?_take_of_lt (Nat.mod_lt j hsize), List.getElem?_drop, Nat.div_add_mod',
      List.getElem?_eq_getElem hj]

/-! ## Commands -/

/-- What a command orders. Lengths of time are in seconds. -/
inductive Order where
  | get (key : Bytes)
  | setEx (key : Bytes) (secs : Int) (value : Bytes)
  | incrBy (key : Bytes) (n : Int)
  /-- Give a key an expiry, or only if it has none. -/
  | expire (key : Bytes) (secs : Int) (onlyNew : Bool)
  | del (keys : List Bytes)
  | scan (cursor : Nat) (pattern : Bytes)
  deriving DecidableEq, Repr

/-- The order that a command gives. How many keys a page should have is a hint that nothing has to
follow. -/
def Order.parse? : Command → Option Order
  | [] => none
  | name :: arguments =>
    match ofUtf8? name, arguments with
    | some "GET", [key] => some (.get key)
    | some "SETEX", [key, secs, value] => (Json.integer? secs).map fun n ↦ .setEx key n value
    | some "INCRBY", [key, by'] => (Json.integer? by').map fun n ↦ .incrBy key n
    | some "EXPIRE", [key, secs] => (Json.integer? secs).map fun n ↦ .expire key n false
    | some "EXPIRE", [key, secs, condition] =>
      if condition = utf8 "NX" then (Json.integer? secs).map fun n ↦ .expire key n true else none
    | some "DEL", key :: more => some (.del (key :: more))
    | some "SCAN", [cursor, match', pattern, count, hint] =>
      if match' = utf8 "MATCH" ∧ count = utf8 "COUNT" ∧ (Json.integer? hint).isSome then
        (Json.integer? cursor).bind fun n ↦ if n < 0 then none else some (.scan n.toNat pattern)
      else none
    | _, _ => none

/-- A command opens a transaction, ends one, or gives an order. -/
inductive Request where
  | multi
  | exec
  | order (o : Order)
  deriving DecidableEq, Repr

/-- What a command asks for. -/
def Request.parse? (c : Command) : Option Request :=
  if c = command ["MULTI"] then some .multi
  else if c = command ["EXEC"] then some .exec
  else (Order.parse? c).map .order

/-! ## Servers -/

/-- What a key holds, and until when, if not for good. -/
structure Item where
  value : Bytes
  expires : Option Instant
  deriving DecidableEq, Repr

/-- Whether a key still holds it. -/
def Item.isLive (item : Item) (now : Instant) : Bool := item.expires.all fun t ↦ now < t

/-- A server. -/
structure Server (σ : Type) where
  now : Instant
  items : Table Bytes Item
  /-- What it remembers of the pages that it has handed out. -/
  state : σ
  /-- The orders of the transaction that is open, if one is. -/
  queue : Option (List Order)

namespace Server

variable (scanner : Scanner σ)

/-- A server without keys. -/
def new (now : Instant) (state : σ) : Server σ := ⟨now, Table.empty, state, none⟩

/-- The keys. -/
def keys (s : Server σ) : List Bytes := s.items.pairs.map Prod.fst

/-- Let time pass: what expires meanwhile is dropped. -/
def pass (s : Server σ) (d : Duration) : Server σ :=
  { s with now := s.now + d, items := s.items.filter fun _ item ↦ item.isLive (s.now + d) }

/-- Give a key an item. -/
def put (s : Server σ) (key : Bytes) (item : Item) : Server σ :=
  { s with items := s.items.insert key item }

/-- Forget keys. -/
def without (s : Server σ) (keys : List Bytes) : Server σ :=
  { s with items := s.items.filter fun key _ ↦ key ∉ keys }

/-- The page for a cursor and a pattern. -/
def page (s : Server σ) (cursor : Nat) (pattern : Bytes) : Page σ :=
  scanner.page s.state s.keys cursor pattern

/-- Obey an order. -/
def perform (s : Server σ) : Order → Reply × Server σ
  | .get key =>
    match s.items.find? key with
    | none => (.nil, s)
    | some item => (.bulk item.value, s)
  | .setEx key secs value =>
    if secs ≤ 0 then (.error "ERR invalid expire time in 'setex' command", s)
    else (.simple "OK", s.put key ⟨value, some (s.now + Duration.ofSecs secs.toNat)⟩)
  | .incrBy key n =>
    match s.items.find? key with
    | none => (.int n, s.put key ⟨Json.integerOctets n, none⟩)
    | some item =>
      match Json.integer? item.value with
      | none => (.error "ERR value is not an integer or out of range", s)
      | some count =>
        (.int (count + n), s.put key ⟨Json.integerOctets (count + n), item.expires⟩)
  | .expire key secs onlyNew =>
    match s.items.find? key with
    | none => (.int 0, s)
    | some item =>
      if onlyNew && item.expires.isSome then (.int 0, s)
      else if secs ≤ 0 then (.int 1, s.without [key])
      else (.int 1, s.put key { item with expires := some (s.now + Duration.ofSecs secs.toNat) })
  | .del keys => (.int (s.items.size - (s.without keys).items.size : Nat), s.without keys)
  | .scan cursor pattern =>
    let page := s.page scanner cursor pattern
    (.array [.bulk (Json.integerOctets page.next), .array (page.keys.map .bulk)],
      { s with state := page.state })

/-- Obey orders one after the other. -/
def performAll (s : Server σ) : List Order → List Reply × Server σ
  | [] => ([], s)
  | o :: rest =>
    let (r, s) := s.perform scanner o
    let (rs, s) := s.performAll rest
    (r :: rs, s)

/-- Obey a command. While a transaction is open, nothing that counts as a reply is said. -/
def obey (s : Server σ) (c : Command) : List Reply × Server σ :=
  match Request.parse? c, s.queue with
  | none, _ => ([.error "ERR unknown command"], { s with queue := none })
  | some .multi, none => ([], { s with queue := some [] })
  | some .multi, some _ => ([.error "ERR MULTI calls can not be nested"], { s with queue := none })
  | some .exec, none => ([.error "ERR EXEC without MULTI"], s)
  | some .exec, some orders =>
    let (rs, s) := { s with queue := none }.performAll scanner orders
    ([.array rs], s)
  | some (.order o), none =>
    let (r, s) := s.perform scanner o
    ([r], s)
  | some (.order o), some orders => ([], { s with queue := some (orders ++ [o]) })

/-- Obey commands one after the other. -/
def serve (s : Server σ) : List Command → List Reply × Server σ
  | [] => ([], s)
  | c :: rest =>
    let (r, s) := s.obey scanner c
    let (rs, s) := s.serve rest
    (r ++ rs, s)

end Server

end Gatehouse.Redis
