import Gatehouse.Proofs.Redis.Wire

/-!
# Conversations

An operation is given the replies to what it sends, and what it sends depends on the replies that
it has been given. So a conversation with a server is built up from nothing: the operation is asked
what it would send, the server replies, and with these replies the operation is asked again. The
conversation is complete when the server has nothing to add, and then there is one outcome and one
state of the server: `Completes.unique`.

A question that is answered at once is one such round: `completes_get`, `completes_set` and, for
the transaction that counts, `exists_completes_increment`. An operation that needs several rounds
is put together by `Completes.after`.
-/

namespace Gatehouse.Redis

variable {σ α : Type} (scanner : Scanner σ)

namespace Server

/-- The replies of a server to what an operation sends, after so many rounds. -/
def talk (s : Server σ) (op : List Reply → Exchange α) : Nat → List Reply
  | 0 => []
  | n + 1 => (s.serve scanner (op (s.talk op n)).sent).1

end Server

/-- The conversation of an operation with a server comes to this outcome, and leaves the server
like this. -/
def Completes (s : Server σ) (op : List Reply → Exchange α) (outcome : Except ExchangeError α)
    (s' : Server σ) : Prop :=
  ∃ n, s.serve scanner (op (s.talk scanner op n)).sent = (s.talk scanner op n, s') ∧
    (op (s.talk scanner op n)).outcome = outcome ∧ (op (s.talk scanner op n)).unread = []

variable {scanner} {s s' s₁ : Server σ} {op op' : List Reply → Exchange α}
  {o o' : Except ExchangeError α}

/-! ## Rounds -/

/-- Once the server has nothing to add, it never has. -/
theorem Server.talk_add {n : Nat} (h : s.talk scanner op (n + 1) = s.talk scanner op n) (k : Nat) :
    s.talk scanner op (n + k) = s.talk scanner op n := by
  induction k with
  | zero => rfl
  | succ k ih => rw [← Nat.add_assoc, talk, ih, ← talk, h]

namespace Completes

theorem unique (h : Completes scanner s op o s') (h' : Completes scanner s op o' s₁) :
    o = o' ∧ s' = s₁ := by
  obtain ⟨n, hserve, rfl, -⟩ := h
  obtain ⟨m, hserve', rfl, -⟩ := h'
  -- both have come to the replies that nothing is added to
  have hsame : s.talk scanner op n = s.talk scanner op m := by
    rw [← Server.talk_add (congrArg Prod.fst hserve) m,
      ← Server.talk_add (congrArg Prod.fst hserve') n, Nat.add_comm]
  rw [hsame] at hserve ⊢
  exact ⟨rfl, congrArg Prod.snd (hserve.symm.trans hserve')⟩

/-- A question that gets one reply. -/
theorem ask {commands : List Command} {read? : Reply → Option α} {r : Reply}
    (h : s.serve scanner commands = ([r], s')) :
    Completes scanner s (ask commands read?) (understood read? r) s' := by
  have htalk : s.talk scanner (Redis.ask commands read?) 1 = [r] := congrArg Prod.fst h
  refine ⟨1, ?_⟩
  rw [htalk]
  exact ⟨h, rfl, rfl⟩

/-- An operation whose last word is known. -/
theorem of_talk {n : Nat} {commands : List Command} {replies : List Reply}
    (htalk : s.talk scanner op n = replies) (hserve : s.serve scanner commands = (replies, s'))
    (hop : op replies = ⟨commands, o, []⟩) : Completes scanner s op o s' := by
  refine ⟨n, ?_⟩
  rw [htalk, hop]
  exact ⟨hserve, rfl, rfl⟩

end Completes

theorem Server.serve_cons (s : Server σ) (c : Command) (cs : List Command) :
    s.serve scanner (c :: cs) =
      ((s.obey scanner c).1 ++ ((s.obey scanner c).2.serve scanner cs).1,
        ((s.obey scanner c).2.serve scanner cs).2) := rfl

theorem Server.serve_append (s : Server σ) (cs ds : List Command) :
    s.serve scanner (cs ++ ds) =
      ((s.serve scanner cs).1 ++ ((s.serve scanner cs).2.serve scanner ds).1,
        ((s.serve scanner cs).2.serve scanner ds).2) := by
  induction cs generalizing s with
  | nil => rfl
  | cons c cs ih => rw [List.cons_append, serve_cons, ih, serve_cons, List.append_assoc]

/-- An operation that goes on as another one, once it has had some replies. -/
theorem Completes.after {n : Nat} {commands : List Command} {replies : List Reply}
    (htalk : s.talk scanner op n = replies) (hserve : s.serve scanner commands = (replies, s₁))
    (hop : ∀ rest, op (replies ++ rest) = (op' rest).after commands)
    (h : Completes scanner s₁ op' o s') : Completes scanner s op o s' := by
  obtain ⟨m, hserve', houtcome, hunread⟩ := h
  have hrounds : ∀ k, s.talk scanner op (n + k) = replies ++ s₁.talk scanner op' k := by
    intro k
    induction k with
    | zero => rw [Nat.add_zero, htalk, Server.talk, List.append_nil]
    | succ k ih =>
      rw [← Nat.add_assoc, Server.talk, ih, hop, Exchange.after, Server.serve_append, hserve]
      rfl
  refine ⟨n + m, ?_⟩
  rw [hrounds, hop, Exchange.after, Server.serve_append, hserve]
  exact ⟨by rw [hserve'], houtcome, hunread⟩

/-! ## Questions -/

theorem Server.serve_cons_order {c : Command} {order : Order} {r : Reply} (hq : s.queue = none)
    (hc : Request.parse? c = some (.order order)) (hperform : s.perform scanner order = (r, s₁))
    (cs : List Command) :
    s.serve scanner (c :: cs) = (r :: (s₁.serve scanner cs).1, (s₁.serve scanner cs).2) := by
  rw [serve_cons, obey, hc, hq]
  simp only [hperform, List.cons_append, List.nil_append]

/-- A question that is a single order. -/
theorem Completes.order {c : Command} {order : Order} {read? : Reply → Option α} {r : Reply}
    (hq : s.queue = none) (hc : Request.parse? c = some (.order order))
    (hperform : s.perform scanner order = (r, s')) :
    Completes scanner s (Redis.ask [c] read?) (understood read? r) s' :=
  .ask (Server.serve_cons_order hq hc hperform [])

/-- A question that is a transaction of two orders: they are obeyed at its end, with one reply. -/
theorem Completes.transaction {c c' : Command} {order order' : Order} {read? : Reply → Option α}
    {r r' : Reply} (hq : s.queue = none) (hc : Request.parse? c = some (.order order))
    (hc' : Request.parse? c' = some (.order order'))
    (hperform : s.perform scanner order = (r, s₁))
    (hperform' : s₁.perform scanner order' = (r', s')) :
    Completes scanner s (Redis.ask [command ["MULTI"], c, c', command ["EXEC"]] read?)
      (understood read? (.array [r, r'])) s' := by
  have hs : { s with queue := none } = s := by rw [← hq]
  refine .ask ?_
  simp only [Server.serve, Server.obey, parse?_multi, hq, hc, hc', parse?_exec,
    Server.performAll, List.nil_append, List.cons_append, List.append_nil, hs, hperform, hperform']

variable (scanner) in
theorem completes_get (hq : s.queue = none) (key : String) :
    Completes scanner s (get key) (.ok ((s.items.find? (utf8 key)).map Item.value)) s := by
  have hperform : s.perform scanner (.get (utf8 key)) =
      (((s.items.find? (utf8 key)).map Item.value).elim .nil .bulk, s) := by
    rw [Server.perform]
    cases s.items.find? (utf8 key) <;> rfl
  rw [← understood_octets?]
  exact .order hq (parse?_get key) hperform

theorem expirySecs_pos (d : Duration) : 0 < expirySecs d := by
  have hmax : 0 < maxSecs := by decide
  rw [expirySecs]
  omega

theorem not_expirySecs_nonpos (d : Duration) : ¬ (expirySecs d : Int) ≤ 0 := by
  have hpos := expirySecs_pos d
  omega

theorem completes_set (hq : s.queue = none) (key : String) (value : Bytes) (ttl : Duration) :
    Completes scanner s (set key value ttl) (.ok ())
      (s.put (utf8 key) ⟨value, some (s.now + Duration.ofSecs (expirySecs ttl))⟩) := by
  have hok : understood (fun _ ↦ some ()) (.simple "OK") = .ok () := rfl
  rw [← hok]
  refine .order hq (parse?_setEx key (expirySecs ttl) value) ?_
  rw [Server.perform, if_neg (not_expirySecs_nonpos ttl), Int.toNat_natCast]

/-! ## Counting -/

namespace Server

/-- One key has been given an item. -/
structure Wrote (s : Server σ) (key : Bytes) (item : Item) (s' : Server σ) : Prop where
  now_eq : s'.now = s.now
  queue_eq : s'.queue = s.queue
  find?_eq : ∀ k, s'.items.find? k = if k = key then some item else s.items.find? k

theorem wrote_put (s : Server σ) (key : Bytes) (item : Item) : s.Wrote key item (s.put key item) :=
  ⟨rfl, rfl, fun k ↦ Table.find?_insert s.items key k item⟩

/-- Of two items for one key, the second stays. -/
theorem Wrote.trans {key : Bytes} {item item' : Item} (h : s.Wrote key item s₁)
    (h' : s₁.Wrote key item' s') : s.Wrote key item' s' where
  now_eq := h'.now_eq.trans h.now_eq
  queue_eq := h'.queue_eq.trans h.queue_eq
  find?_eq k := by
    rw [h'.find?_eq, h.find?_eq]
    split <;> rfl

/-- The count of a key; one that is absent counts zero. -/
def count? (s : Server σ) (key : Bytes) : Option Int :=
  (s.items.find? key).elim (some 0) fun item ↦ Json.integer? item.value

/-- The expiry of a key, if it has one. -/
def expiry? (s : Server σ) (key : Bytes) : Option Instant := (s.items.find? key).bind Item.expires

theorem perform_incrBy {key : Bytes} {n : Int} (h : s.count? key = some n) (m : Int) :
    s.perform scanner (.incrBy key m) =
      (.int (n + m), s.put key ⟨Json.integerOctets (n + m), s.expiry? key⟩) := by
  rw [count?] at h
  rw [perform, expiry?]
  cases hitem : s.items.find? key with
  | none =>
    rw [hitem] at h
    cases h
    simp
  | some item =>
    rw [hitem, Option.elim_some] at h
    simp [h]

end Server

/-- The expiry of a counter after an increment. -/
def expiryAfter (before : Option Instant) (now : Instant) (window : Duration) :
    ExpiryPolicy → Instant
  | .rolling => now + Duration.ofSecs (expirySecs window)
  | .fixed => before.getD (now + Duration.ofSecs (expirySecs window))

theorem expiryAfter_rolling (before : Option Instant) (now : Instant) (window : Duration) :
    expiryAfter before now window .rolling = now + Duration.ofSecs (expirySecs window) := rfl

theorem expiryAfter_fixed (t now : Instant) (window : Duration) :
    expiryAfter (some t) now window .fixed = t := rfl

theorem expiryAfter_none (now : Instant) (window : Duration) (policy : ExpiryPolicy) :
    expiryAfter none now window policy = now + Duration.ofSecs (expirySecs window) := by
  cases policy with
  | rolling => exact expiryAfter_rolling none now window
  | fixed => rw [expiryAfter, Option.getD_none]

variable (scanner) in
theorem Server.exists_perform_expire {key : Bytes} {item : Item}
    (hitem : s.items.find? key = some item) (window : Duration) (policy : ExpiryPolicy) :
    ∃ (m : Int) (s' : Server σ),
      s.perform scanner (.expire key (expirySecs window) (policy = .fixed)) = (.int m, s') ∧
        s.Wrote key ⟨item.value, some (expiryAfter item.expires s.now window policy)⟩ s' := by
  rw [perform, hitem]
  simp only [if_neg (not_expirySecs_nonpos window), Int.toNat_natCast]
  cases policy with
  | rolling =>
    rw [expiryAfter_rolling]
    exact ⟨1, _, if_neg (by simp), wrote_put s key _⟩
  | fixed =>
    cases hexpires : item.expires with
    | none =>
      rw [expiryAfter_none]
      exact ⟨1, _, if_neg (by simp), wrote_put s key _⟩
    | some t =>
      -- there is an expiry, so nothing happens
      have hsame : item = ⟨item.value, some (expiryAfter (some t) s.now window .fixed)⟩ := by
        rw [expiryAfter_fixed, ← hexpires]
      refine ⟨0, s, if_pos (by simp), rfl, rfl, fun k ↦ ?_⟩
      rw [← hsame]
      split
      · next hk => rw [hk, hitem]
      · rfl

variable (scanner) in
/-- An increment adds one to the count of a key and sees to its expiry. -/
theorem exists_completes_increment {key : String} {n : Nat} (hq : s.queue = none)
    (hcount : s.count? (utf8 key) = some n) (window : Duration) (policy : ExpiryPolicy) :
    ∃ s', Completes scanner s (increment key window policy) (.ok (wrapped (n + 1))) s' ∧
      s.Wrote (utf8 key) ⟨Json.integerOctets (n + 1 : Nat),
        some (expiryAfter (s.expiry? (utf8 key)) s.now window policy)⟩ s' := by
  have hwrote := s.wrote_put (utf8 key) ⟨Json.integerOctets (n + 1 : Nat), s.expiry? (utf8 key)⟩
  have hitem := hwrote.find?_eq (utf8 key)
  rw [if_pos rfl] at hitem
  obtain ⟨m, s', hexpire, hwrote'⟩ :=
    Server.exists_perform_expire scanner hitem window policy
  refine ⟨s', ?_, hwrote.trans hwrote'⟩
  rw [← understood_transactionCount? (n + 1) m]
  exact .transaction hq (parse?_incrBy key) (parse?_expire key window policy)
    (Server.perform_incrBy hcount 1) hexpire

end Gatehouse.Redis
