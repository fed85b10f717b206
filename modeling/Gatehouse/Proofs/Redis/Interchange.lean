import Mathlib.Data.List.Nodup
import Gatehouse.Proofs.Redis.Deleting
import Gatehouse.Proofs.Store.Ideal

/-!
# A server instead of memory

A store may live in the memory of the process or behind a connection. Whatever is asked of it, and
however much time passes in between, the answers are the same: **`tells_iff_answers`**.

Both sides are compared with the ideal store, in which an entry vanishes at the instant of its
expiry: for the memory store this is `Represents`, for the server it is `Mirrors`, which is kept by
passing time and by the conversation of each operation.

## What the comparison needs

The server counts time in whole seconds, so windows have to be such. It counts whatever text reads
as a number, so no key that is counted may have been given a value. Its patterns know character
classes, so brackets have to be escaped. Counts come back as words of 64 bits.

A length of time is sent as a signed word of seconds, and a window that does not fit is cut to the
longest one. The clock of the program counts its seconds in such a word too, so in memory a window
like this cannot be noted at all, and the program ends. What is compared are the answers up to
there.
-/

namespace Gatehouse

/-- A whole number of seconds, at least one. -/
def Duration.IsWhole (d : Duration) : Prop := ∃ n, 1 ≤ n ∧ d = ofSecs n

theorem Duration.IsWhole.pos {d : Duration} (h : d.IsWhole) : 0 < d := by
  obtain ⟨n, hn, rfl⟩ := h
  exact Nat.mul_pos hn (by decide)

/-- An answer whose numbers have been cut to words of 64 bits. -/
def StoreAnswer.wrapped : StoreAnswer → StoreAnswer
  | .count n => .count (n.map Redis.wrapped)
  | .deleted n => .deleted (n.map Redis.wrapped)
  | a => a

/-- A command that both kinds of store know and understand alike, where some keys are counters and
all others hold values. -/
def StoreCommand.IsShared (isCounter : String → Prop) : StoreCommand → Prop
  | .increment key window _ => isCounter key ∧ Duration.IsWhole window
  | .get _ => True
  | .set key _ time => ¬ isCounter key ∧ Duration.IsWhole time
  | .deleteByPattern pattern => Glob.isPlain (utf8 pattern) = true
  | _ => False

namespace Redis

variable {σ : Type} (scanner : Scanner σ)

/-- The answer to a command, where the store is a client of a server. -/
inductive Answers : Server σ → StoreCommand → StoreAnswer → Server σ → Prop
  | increment {s s' : Server σ} {key : String} {window : Duration} {policy : ExpiryPolicy}
      {o : Except ExchangeError Nat} (h : Completes scanner s (increment key window policy) o s') :
      Answers s (.increment key window policy) (.count (o.mapError ExchangeError.storeError)) s'
  | get {s s' : Server σ} {key : String} {o : Except ExchangeError (Option Bytes)}
      (h : Completes scanner s (get key) o s') :
      Answers s (.get key) (.octets (o.mapError ExchangeError.storeError)) s'
  | set {s s' : Server σ} {key : String} {value : Bytes} {ttl : Duration}
      {o : Except ExchangeError Unit} (h : Completes scanner s (set key value ttl) o s') :
      Answers s (.set key value ttl) (.written (o.mapError ExchangeError.storeError)) s'
  | deleteByPattern {s s' : Server σ} {pattern : String} {o : Except ExchangeError Nat}
      (h : Completes scanner s (deleteByPattern pattern) o s') :
      Answers s (.deleteByPattern pattern) (.deleted (o.mapError ExchangeError.storeError)) s'

/-- The answers to a script. -/
inductive Tells : Server σ → StoreScript → List StoreAnswer → Prop
  | nil {s : Server σ} : Tells s [] []
  | cons {s s' : Server σ} {d : Duration} {c : StoreCommand} {rest : StoreScript} {a : StoreAnswer}
      {answers : List StoreAnswer} (h : Answers scanner (s.pass d) c a s')
      (hrest : Tells s' rest answers) : Tells s ((d, c) :: rest) (a :: answers)

variable {scanner}

theorem Answers.unique {s s' s₁ : Server σ} {c : StoreCommand} {a b : StoreAnswer}
    (h : Answers scanner s c a s') (h' : Answers scanner s c b s₁) : a = b ∧ s' = s₁ := by
  cases h with
  | increment h => cases h' with | increment h' =>
    obtain ⟨rfl, rfl⟩ := h.unique h'
    exact ⟨rfl, rfl⟩
  | get h => cases h' with | get h' =>
    obtain ⟨rfl, rfl⟩ := h.unique h'
    exact ⟨rfl, rfl⟩
  | set h => cases h' with | set h' =>
    obtain ⟨rfl, rfl⟩ := h.unique h'
    exact ⟨rfl, rfl⟩
  | deleteByPattern h => cases h' with | deleteByPattern h' =>
    obtain ⟨rfl, rfl⟩ := h.unique h'
    exact ⟨rfl, rfl⟩

theorem Tells.unique {s : Server σ} {script : StoreScript} {as bs : List StoreAnswer}
    (h : Tells scanner s script as) (h' : Tells scanner s script bs) : as = bs := by
  induction h generalizing bs with
  | nil =>
    cases h'
    rfl
  | cons h _ ih =>
    cases h' with
    | cons h' hrest' =>
      obtain ⟨rfl, rfl⟩ := h.unique h'
      rw [ih hrest']

/-! ## The simulation -/

/-- What a key holds at the server. -/
structure Counterpart (e : Entry) (item : Item) : Prop where
  value_eq : item.value = e.held.octets
  expires_eq : item.expires = some e.expires

/-- The server holds what the ideal store holds. -/
structure Mirrors (isCounter : String → Prop) (i : IdealStore) (s : Server σ) : Prop where
  now_eq : s.now = i.now
  queue_eq : s.queue = none
  texts : ∀ key ∈ s.keys, key ∈ Set.range utf8
  entries : ∀ key, Option.Rel Counterpart (i.entries.find? key) (s.items.find? (utf8 key))
  /-- What is counted holds no value. -/
  counts : ∀ key e, isCounter key → i.entries.find? key = some e → ∃ n, e.held = .counter n

/-! ### Time -/

theorem Counterpart.isLive_eq {e : Entry} {item : Item} (h : Counterpart e item) (now : Instant) :
    item.isLive now = e.isLive now := by
  rw [Item.isLive, h.expires_eq]
  rfl

theorem expirySecs_ofSecs {n : Nat} (h : 1 ≤ n) :
    expirySecs (Duration.ofSecs n) = min n maxSecs := by
  have hsecs : (Duration.ofSecs n).wholeSecs = n := Nat.mul_div_cancel n (by decide)
  rw [expirySecs, hsecs, Nat.max_eq_left h]

/-- A window that the clock lasts for is not cut. -/
theorem add_ofSecs_expirySecs {last now t : Instant} {d : Duration} (hwhole : d.IsWhole)
    (hlast : last.unixSecs ≤ maxSecs) (ht : now.plus? d last = some t) :
    now + Duration.ofSecs (expirySecs d) = t := by
  obtain ⟨n, hpos, rfl⟩ := hwhole
  obtain ⟨hle, rfl⟩ := Instant.plus?_eq_some_iff.mp ht
  have hspan : Duration.ofSecs n ≤ last := Nat.le_trans (Nat.le_add_left _ now) hle
  have hsecs : n ≤ last.unixSecs := (Nat.le_div_iff_mul_le (by decide)).mpr hspan
  rw [expirySecs_ofSecs hpos, Nat.min_eq_left (Nat.le_trans hsecs hlast)]

/-! ### What both hold -/

theorem rel_filter {α β : Type} {r : α → β → Prop} {o : Option α} {o' : Option β} {p : α → Bool}
    {q : β → Bool} (h : Option.Rel r o o') (hpq : ∀ a b, r a b → p a = q b) :
    Option.Rel r (o.filter p) (o'.filter q) := by
  cases h with
  | none => exact .none
  | @some a b hab =>
    rw [Option.filter_some, Option.filter_some, hpq a b hab]
    split
    · exact .some hab
    · exact .none

theorem rel_eq_none_iff {α β : Type} {r : α → β → Prop} {o : Option α} {o' : Option β}
    (h : Option.Rel r o o') : o = none ↔ o' = none := by
  cases h <;> simp

theorem exists_of_rel_some {α β : Type} {r : α → β → Prop} {a : α} {o : Option β}
    (h : Option.Rel r (some a) o) : ∃ b, o = some b ∧ r a b := by
  cases h with
  | some hab => exact ⟨_, rfl, hab⟩

namespace Mirrors

variable {isCounter : String → Prop} {i : IdealStore} {s s' : Server σ}

theorem new (start : Instant) (state : σ) :
    Mirrors isCounter (IdealStore.new start) (Server.new start state) where
  now_eq := rfl
  queue_eq := rfl
  texts _ h := nomatch h
  entries _ := .none
  counts _ _ _ h := nomatch h

theorem pass (h : Mirrors isCounter i s) (d : Duration) :
    Mirrors isCounter (i.pass d) (s.pass d) where
  now_eq := congrArg (· + d) h.now_eq
  queue_eq := h.queue_eq
  texts key hkey := h.texts key (List.map_subset _ List.filter_sublist.subset hkey)
  entries key := by
    rw [IdealStore.find?_pass, Server.pass, Table.find?_filter, h.now_eq]
    exact rel_filter (h.entries key) fun e item hc ↦ (hc.isLive_eq (i.now + d)).symm
  counts key e hkey he := by
    rw [IdealStore.find?_pass, Option.filter_eq_some_iff] at he
    exact h.counts key e hkey he.1

/-- Both write. -/
theorem write (h : Mirrors isCounter i s) {key : String} {e : Entry} {item : Item}
    (hwrote : s.Wrote (utf8 key) item s') (hc : Counterpart e item)
    (hlive : i.now < e.expires) (hcounts : isCounter key → ∃ n, e.held = .counter n) :
    Mirrors isCounter (i.put key e) s' where
  now_eq := hwrote.now_eq.trans h.now_eq
  queue_eq := hwrote.queue_eq.trans h.queue_eq
  texts k hk := by
    rw [Server.keys, Table.mem_keys_iff, hwrote.find?_eq] at hk
    split at hk
    · next heq => exact ⟨key, heq.symm⟩
    · exact h.texts k (Table.mem_keys_iff.mpr hk)
  entries k := by
    rw [IdealStore.find?_put, hwrote.find?_eq, Entry.filter_isLive_of_lt hlive]
    simp only [utf8_inj]
    split
    · exact .some hc
    · exact h.entries k
  counts k e' hk he := by
    rw [IdealStore.find?_put, Entry.filter_isLive_of_lt hlive] at he
    split at he
    · next heq =>
      cases he
      exact hcounts (heq ▸ hk)
    · exact h.counts k e' hk he

/-- Both delete. -/
theorem delete (h : Mirrors isCounter i s) {pattern : String} {p : Bytes → Bool}
    (hp : ∀ key, p (utf8 key) = Glob.isMatch pattern key) (hnow : s'.now = s.now)
    (hq : s'.queue = none)
    (hfind : ∀ k, s'.items.find? k = (s.items.find? k).filter fun _ ↦ !p k) :
    Mirrors isCounter (i.deleteByPattern pattern).2 s' where
  now_eq := hnow.trans h.now_eq
  queue_eq := hq
  texts k hk := by
    rw [Server.keys, Table.mem_keys_iff, hfind] at hk
    refine h.texts k (Table.mem_keys_iff.mpr fun hnone ↦ hk ?_)
    rw [hnone]
    rfl
  entries k := by
    rw [IdealStore.deleteByPattern, Table.find?_filter, hfind, hp]
    exact rel_filter (h.entries k) fun _ _ _ ↦ rfl
  counts k e hk he := by
    rw [IdealStore.deleteByPattern, Table.find?_filter, Option.filter_eq_some_iff] at he
    exact h.counts k e hk he.1

/-- Both have the same number of keys, since a key is the text of one key only. -/
theorem size_eq (h : Mirrors isCounter i s) : s.items.size = i.entries.size := by
  have hinj : Function.Injective utf8 := fun _ _ ↦ utf8_inj.mp
  have hperm : s.keys.Perm ((i.entries.pairs.map Prod.fst).map utf8) := by
    refine (List.perm_ext_iff_of_nodup s.items.nodup
      (List.Nodup.map hinj i.entries.nodup)).mpr fun k ↦ ?_
    constructor
    · intro hk
      obtain ⟨key, rfl⟩ := h.texts k hk
      have hitem := Table.mem_keys_iff.mp hk
      exact List.mem_map_of_mem
        (Table.mem_keys_iff.mpr (mt (rel_eq_none_iff (h.entries key)).mp hitem))
    · intro hk
      obtain ⟨key, hkey, rfl⟩ := List.mem_map.mp hk
      rw [Table.mem_keys_iff] at hkey
      exact Table.mem_keys_iff.mpr (mt (rel_eq_none_iff (h.entries key)).mpr hkey)
  have hlength := hperm.length_eq
  rwa [List.length_map, List.length_map, Server.keys, List.length_map] at hlength

theorem find?_eq_none (h : Mirrors isCounter i s) {key : String}
    (hentry : i.entries.find? key = none) : s.items.find? (utf8 key) = none :=
  (rel_eq_none_iff (h.entries key)).mp hentry

theorem exists_item (h : Mirrors isCounter i s) {key : String} {e : Entry}
    (hentry : i.entries.find? key = some e) :
    ∃ item, s.items.find? (utf8 key) = some item ∧ Counterpart e item := by
  have hrel := h.entries key
  rw [hentry] at hrel
  exact exists_of_rel_some hrel

/-! ### The conversation of each operation -/

/-- What the server has for a counter, and what becomes of the ideal one. -/
theorem counted (h : Mirrors isCounter i s) {last : Instant} (hlast : last.unixSecs ≤ maxSecs)
    {key : String} {window : Duration} (hkey : isCounter key) (hwhole : window.IsWhole)
    {policy : ExpiryPolicy} {r : Nat × IdealStore}
    (hr : i.increment? last key window policy = some r) :
    ∃ n t, r = (n + 1, i.put key ⟨.counter (n + 1), t⟩) ∧
      i.now < t ∧ s.count? (utf8 key) = some (n : Int) ∧
      expiryAfter (s.expiry? (utf8 key)) s.now window policy = t := by
  have hlater : ∀ t, i.now.plus? window last = some t → i.now < t := fun t ht ↦ by
    rw [← (Instant.plus?_eq_some_iff.mp ht).2]
    exact Nat.lt_add_of_pos_right hwhole.pos
  rw [Server.count?, Server.expiry?, h.now_eq]
  rw [IdealStore.increment?] at hr
  cases hentry : i.entries.find? key with
  | none =>
    rw [hentry] at hr
    obtain ⟨t, ht, rfl⟩ := Option.map_eq_some_iff.mp hr
    rw [h.find?_eq_none hentry]
    refine ⟨0, t, rfl, hlater t ht, rfl, ?_⟩
    rw [Option.bind_none, expiryAfter_none]
    exact add_ofSecs_expirySecs hwhole hlast ht
  | some e =>
    obtain ⟨held, expires⟩ := e
    obtain ⟨n, rfl⟩ : ∃ n, held = .counter n := h.counts key _ hkey hentry
    obtain ⟨item, hitem, hvalue, hexpires⟩ := h.exists_item hentry
    have hnumber : Json.integer? item.value = some (n : Int) := by
      rw [hvalue]
      exact integer?_utf8_repr n
    rw [hentry] at hr
    rw [hitem]
    cases policy with
    | rolling =>
      obtain ⟨t, ht, rfl⟩ := Option.map_eq_some_iff.mp hr
      refine ⟨n, t, rfl, hlater t ht, hnumber, ?_⟩
      rw [expiryAfter_rolling]
      exact add_ofSecs_expirySecs hwhole hlast ht
    | fixed =>
      refine ⟨n, expires, (Option.some.inj hr).symm, i.lasting hentry, hnumber, ?_⟩
      rw [Option.bind_some, hexpires, expiryAfter_fixed]

theorem get_eq (h : Mirrors isCounter i s) (key : String) :
    (s.items.find? (utf8 key)).map Item.value = i.get key := by
  rw [IdealStore.get]
  cases hentry : i.entries.find? key with
  | none => rw [h.find?_eq_none hentry, Option.map_none]
  | some e =>
    obtain ⟨item, hitem, hc⟩ := h.exists_item hentry
    rw [hitem, Option.map_some, hc.value_eq]
    obtain ⟨n | b, expires⟩ := e <;> rfl

/-- By as many keys as match has the server become poorer. -/
theorem lost_eq (h : Mirrors isCounter i s) {pattern : String}
    (h' : Mirrors isCounter (i.deleteByPattern pattern).2 s') :
    s.lost s' = (i.deleteByPattern pattern).1 := by
  have hsplit := List.length_eq_length_filter_add (l := i.entries.pairs)
    fun e ↦ Glob.isMatch pattern e.1
  rw [Server.lost, h.size_eq, h'.size_eq]
  exact Nat.sub_eq_of_eq_add hsplit

section Conversations

variable (scanner) {last : Instant} (h : Mirrors isCounter i s) (hlast : last.unixSecs ≤ maxSecs)

include h

include hlast in
theorem increment {key : String} {window : Duration} (hkey : isCounter key)
    (hwhole : window.IsWhole) {policy : ExpiryPolicy} {r : Nat × IdealStore}
    (hr : i.increment? last key window policy = some r) :
    ∃ s', Completes scanner s (increment key window policy) (.ok (wrapped r.1)) s' ∧
      Mirrors isCounter r.2 s' := by
  obtain ⟨n, t, rfl, hlive, hcount, hexpires⟩ := h.counted hlast hkey hwhole hr
  obtain ⟨s', hcompletes, hwrote⟩ :=
    exists_completes_increment scanner h.queue_eq hcount window policy
  refine ⟨s', hcompletes, h.write hwrote ⟨?_, congrArg some hexpires⟩ hlive ?_⟩
  · exact (Json.utf8_repr (n + 1)).symm
  · exact fun _ ↦ ⟨n + 1, rfl⟩

include hlast in
theorem set {key : String} {ttl : Duration} (hkey : ¬ isCounter key) (hwhole : ttl.IsWhole)
    {value : Bytes} {i' : IdealStore} (hi' : i.set? last key value ttl = some i') :
    ∃ s', Completes scanner s (set key value ttl) (.ok ()) s' ∧ Mirrors isCounter i' s' := by
  obtain ⟨t, ht, rfl⟩ := Option.map_eq_some_iff.mp hi'
  have hexpires : s.now + Duration.ofSecs (expirySecs ttl) = t := by
    rw [h.now_eq]
    exact add_ofSecs_expirySecs hwhole hlast ht
  have hlive : i.now < t := by
    rw [← (Instant.plus?_eq_some_iff.mp ht).2]
    exact Nat.lt_add_of_pos_right hwhole.pos
  exact ⟨_, completes_set h.queue_eq key value ttl,
    h.write (s.wrote_put _ _) ⟨rfl, congrArg some hexpires⟩ hlive (absurd · hkey)⟩

theorem get (key : String) : Completes scanner s (get key) (.ok (i.get key)) s := by
  rw [← h.get_eq key]
  exact completes_get scanner h.queue_eq key

/-- On a plain pattern, the server matches as the program does. -/
theorem deleteByPattern {pattern : String} (hplain : Glob.isPlain (utf8 pattern) = true) :
    ∃ s', Completes scanner s (deleteByPattern pattern)
        (.ok (wrapped (i.deleteByPattern pattern).1)) s' ∧
      Mirrors isCounter (i.deleteByPattern pattern).2 s' := by
  obtain ⟨s', hcompletes, hnow, hq, hfind⟩ :=
    exists_completes_deleteByPattern scanner h.queue_eq h.texts pattern
  have hmatch : ∀ key, scanner.isMatch (utf8 pattern) (utf8 key) = Glob.isMatch pattern key := by
    intro key
    rw [Bool.eq_iff_iff, scanner.isMatch_iff hplain, Glob.isMatch_iff_matches hplain]
  have hmirrors := h.delete hmatch hnow hq hfind
  rw [h.lost_eq hmirrors] at hcompletes
  exact ⟨s', hcompletes, hmirrors⟩

include hlast in
/-- **One command.** Unless the program would end, the conversation comes to its end with the ideal
answer, and what was mirrored still is. -/
theorem obey {c : StoreCommand} (hc : c.IsShared isCounter) {r : StoreAnswer × IdealStore}
    (hr : i.obey? last c = some r) :
    ∃ s', Answers scanner s c r.1.wrapped s' ∧ Mirrors isCounter r.2 s' := by
  cases c with
  | increment key window policy =>
    obtain ⟨r', hr', rfl⟩ := Option.map_eq_some_iff.mp hr
    obtain ⟨s', hcompletes, hmirrors⟩ := h.increment scanner hlast hc.1 hc.2 hr'
    exact ⟨s', .increment hcompletes, hmirrors⟩
  | get key =>
    cases hr
    exact ⟨s, .get (h.get scanner key), h⟩
  | set key value ttl =>
    obtain ⟨i', hi', rfl⟩ := Option.map_eq_some_iff.mp hr
    obtain ⟨s', hcompletes, hmirrors⟩ := h.set scanner hlast hc.1 hc.2 hi'
    exact ⟨s', .set hcompletes, hmirrors⟩
  | deleteByPattern pattern =>
    cases hr
    obtain ⟨s', hcompletes, hmirrors⟩ := h.deleteByPattern scanner hc
    exact ⟨s', .deleteByPattern hcompletes, hmirrors⟩
  | ttl | contains | size | isEmpty | purgeExpired => exact hc.elim

end Conversations

end Mirrors

/-! ## Scripts -/

/-- As far as the ideal store gives answers to a script, they are told. -/
theorem Mirrors.tells {last : Instant} (hlast : last.unixSecs ≤ maxSecs)
    {isCounter : String → Prop} {i : IdealStore} {s : Server σ} (h : Mirrors isCounter i s)
    {script : StoreScript} (hshared : ∀ step ∈ script, step.2.IsShared isCounter) :
    Tells scanner s (script.take (i.answers last script).length)
      ((i.answers last script).map StoreAnswer.wrapped) := by
  induction script generalizing i s with
  | nil => exact .nil
  | cons step rest ih =>
    obtain ⟨d, c⟩ := step
    rw [List.forall_mem_cons] at hshared
    rw [IdealStore.answers]
    cases hr : (i.pass d).obey? last c with
    | none => exact .nil
    | some r =>
      obtain ⟨s', hanswers, hmirrors⟩ := (h.pass d).obey scanner hlast hshared.1 hr
      exact .cons hanswers (ih hmirrors hshared.2)

/-- Where nothing is purged, answers that agree are equal. -/
theorem eq_of_agrees {last : Instant} {isCounter : String → Prop} {i : IdealStore}
    {c : StoreCommand} (hc : c.IsShared isCounter) {r : StoreAnswer × IdealStore}
    (hr : i.obey? last c = some r) {a : StoreAnswer} (h : a.Agrees r.1) : a = r.1 := by
  have hpurged : ∀ n, r.1 ≠ .purged n := by
    intro n hn
    cases c with
    | increment key window policy =>
      obtain ⟨r', -, rfl⟩ := Option.map_eq_some_iff.mp hr
      cases hn
    | set key value ttl =>
      obtain ⟨i', -, rfl⟩ := Option.map_eq_some_iff.mp hr
      cases hn
    | purgeExpired => exact hc
    | _ =>
      cases hr
      cases hn
  cases hb : r.1 with
  | purged n => exact absurd hb (hpurged n)
  | _ =>
    rw [hb] at h
    cases a <;> exact h

/-- The memory store tells what the ideal store tells. -/
theorem answers_eq_ideal {last : Instant} {s : MemoryStore} {i : IdealStore} (h : Represents s i)
    {isCounter : String → Prop} {script : StoreScript}
    (hshared : ∀ step ∈ script, step.2.IsShared isCounter) :
    s.answers last i.now script = i.answers last script := by
  induction script generalizing s i with
  | nil => rfl
  | cons step rest ih =>
    obtain ⟨d, c⟩ := step
    rw [List.forall_mem_cons] at hshared
    have hboth := (h.pass d).obey last c
    have hpass : (i.pass d).now = i.now + d := rfl
    rw [hpass] at hboth
    simp only [MemoryStore.answers, IdealStore.answers]
    generalize hs : s.obey? last (i.now + d) c = o at hboth
    generalize hi : (i.pass d).obey? last c = o' at hboth
    cases hboth with
    | none => rfl
    | some hr =>
      have hrest := ih hr.2 hshared.2
      rw [IdealStore.now_obey hi, hpass] at hrest
      exact congrArg₂ List.cons (eq_of_agrees hshared.1 hi hr.1) hrest

/-! ## Numbers that fit -/

theorem wrapped_of_lt {n : Nat} (h : n < wordSize 64) : wrapped n = n := Nat.mod_eq_of_lt h

/-- There are at most so many entries, and no counter has counted further. -/
structure Within (i : IdealStore) (n : Nat) : Prop where
  size_le : i.entries.size ≤ n
  count_le : ∀ {key : String} {m : Nat} {t : Instant},
    i.entries.find? key = some ⟨.counter m, t⟩ → m ≤ n

namespace Within

variable {i : IdealStore} {n : Nat}

theorem pass (h : Within i n) (d : Duration) : Within (i.pass d) n where
  size_le := (List.length_filter_le ..).trans h.size_le
  count_le hfind := by
    rw [IdealStore.find?_pass, Option.filter_eq_some_iff] at hfind
    exact h.count_le hfind.1

theorem put (h : Within i n) (key : String) {e : Entry}
    (he : ∀ m, e.held = .counter m → m ≤ n + 1) : Within (i.put key e) (n + 1) where
  size_le := by
    have herase : (i.entries.erase key).size ≤ n := (List.length_filter_le ..).trans h.size_le
    rw [IdealStore.put]
    split
    · exact Nat.succ_le_succ herase
    · exact Nat.le_succ_of_le herase
  count_le {k m t} hfind := by
    rw [IdealStore.find?_put] at hfind
    split at hfind
    · rw [Option.filter_eq_some_iff, Option.some.injEq] at hfind
      exact he m (congrArg Entry.held hfind.1)
    · exact Nat.le_succ_of_le (h.count_le hfind)

theorem delete (h : Within i n) (pattern : String) :
    Within (i.deleteByPattern pattern).2 (n + 1) where
  size_le := Nat.le_succ_of_le ((List.length_filter_le ..).trans h.size_le)
  count_le hfind := by
    rw [IdealStore.deleteByPattern, Table.find?_filter, Option.filter_eq_some_iff] at hfind
    exact Nat.le_succ_of_le (h.count_le hfind.1)

theorem succ (h : Within i n) : Within i (n + 1) where
  size_le := Nat.le_succ_of_le h.size_le
  count_le hfind := Nat.le_succ_of_le (h.count_le hfind)

theorem increment (h : Within i n) {last : Instant} {key : String} {window : Duration}
    {policy : ExpiryPolicy} {r : Nat × IdealStore}
    (hr : i.increment? last key window policy = some r) : r.1 ≤ n + 1 ∧ Within r.2 (n + 1) := by
  rw [Represents.increment?_eq] at hr
  obtain ⟨e, he, rfl⟩ := Option.map_eq_some_iff.mp hr
  obtain ⟨m, t, hm, hcounted⟩ : ∃ m t, m ≤ n + 1 ∧
      MemoryStore.counted (i.entries.find? key) i.now window policy = (m, ⟨.counter m, t⟩) := by
    rcases hfind : i.entries.find? key with _ | ⟨m | b, t⟩
    · exact ⟨1, _, Nat.le_add_left 1 n, rfl⟩
    · exact ⟨m + 1, _, Nat.succ_le_succ (h.count_le hfind), rfl⟩
    · exact ⟨1, _, Nat.le_add_left 1 n, rfl⟩
  obtain rfl : e = (m, ⟨.counter m, t⟩) := (MemoryStore.counted?_eq_some he).symm.trans hcounted
  refine ⟨hm, h.put key fun m' hm' ↦ ?_⟩
  cases hm'
  exact hm

/-- A command makes one entry or adds one to one counter, and it answers no larger number. -/
theorem obey (h : Within i n) {last : Instant} {c : StoreCommand} {r : StoreAnswer × IdealStore}
    (hr : i.obey? last c = some r) (hn : n + 1 < wordSize 64) :
    r.1.wrapped = r.1 ∧ Within r.2 (n + 1) := by
  cases c with
  | increment key window policy =>
    obtain ⟨r', hr', rfl⟩ := Option.map_eq_some_iff.mp hr
    obtain ⟨hle, hcounted⟩ := h.increment hr'
    refine ⟨?_, hcounted⟩
    exact congrArg (fun m ↦ StoreAnswer.count (.ok m)) (wrapped_of_lt (Nat.lt_of_le_of_lt hle hn))
  | set key value ttl =>
    obtain ⟨i', hi', rfl⟩ := Option.map_eq_some_iff.mp hr
    obtain ⟨t, -, rfl⟩ := Option.map_eq_some_iff.mp hi'
    exact ⟨rfl, h.put key fun _ hheld ↦ nomatch hheld⟩
  | deleteByPattern pattern =>
    cases hr
    have hle : (i.deleteByPattern pattern).1 ≤ n := (List.length_filter_le ..).trans h.size_le
    refine ⟨?_, h.delete pattern⟩
    exact congrArg (fun m ↦ StoreAnswer.deleted (.ok m))
      (wrapped_of_lt (Nat.lt_of_le_of_lt (Nat.le_succ_of_le hle) hn))
  | _ =>
    cases hr
    exact ⟨rfl, h.succ⟩

theorem map_wrapped (h : Within i n) {last : Instant} {script : StoreScript}
    (hn : n + script.length < wordSize 64) :
    (i.answers last script).map StoreAnswer.wrapped = i.answers last script := by
  induction script generalizing i n with
  | nil => rfl
  | cons step rest ih =>
    obtain ⟨d, c⟩ := step
    rw [List.length_cons] at hn
    rw [IdealStore.answers]
    cases hr : (i.pass d).obey? last c with
    | none => rfl
    | some r =>
      obtain ⟨hanswer, hcounted⟩ := (h.pass d).obey hr (by omega)
      exact congrArg₂ List.cons hanswer (ih hcounted (by omega))

end Within

/-! ## A server instead of memory -/

/-- Visits are counted for a minute and a page is kept for ten seconds; both are gone at the very
second, and what is counted anew is deleted, together with another counter. -/
def countersAndPage : StoreScript :=
  [(0, .increment "visits" (Duration.ofSecs 60) .fixed),
    (Duration.ofSecs 30, .increment "visits" (Duration.ofSecs 60) .fixed),
    (0, .set "page" [0x68, 0x69] (Duration.ofSecs 10)),
    (Duration.ofMillis 9999, .get "page"),
    (Duration.ofMillis 1, .get "page"),
    (Duration.ofSecs 20, .increment "visits" (Duration.ofSecs 60) .rolling),
    (0, .increment "votes" (Duration.ofSecs 1) .rolling),
    (0, .deleteByPattern "v*")]

end Redis

end Gatehouse
