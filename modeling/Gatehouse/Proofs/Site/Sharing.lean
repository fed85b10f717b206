import Gatehouse.Proofs.Settings.PurgePattern
import Gatehouse.Proofs.Site.Twins

/-!
# One store for counters and responses

A site counts its clients and stores its responses, and both may be done in one store or in two.
Under settings that keep the keys apart nobody can tell: **`Site.sharing_unobservable`** compares
a store in memory that serves as both with two stores in memory, `Apart`, and finds that clients are
told the same in every run.

## What keeps the keys apart

The key of a counter begins with the prefix of counters, and what follows it is up to the client, or
to a proxy that the client may have lied to. The key of a response begins with the name of the
cache's space. No key begins with both, unless one of the two begins with the other,
`Settings.KeepsApart.not_both`; and the purge takes the keys of the space and no others, if the name
of the space has no characters that a pattern reads otherwise.

## What the stores hold

The shared store and the two stores are linked by what they show from now on, `Site.Shows`: of the
keys with the prefix the same as the store of the counters, and of the keys of the space the same as
the other one. A sweep that the one kind of traffic brings about in the shared store removes entries
of both kinds, but no entry that anybody would have been shown.
-/

namespace Gatehouse

/-! ## Two stores -/

/-- Two stores, one for the counters and one for the values. -/
structure Apart (σ τ : Type) where
  counters : σ
  values : τ

namespace Apart

variable {σ τ : Type}

instance [CounterStore σ] : CounterStore (Apart σ τ) where
  increment now key window policy s :=
    let (answer, counters) := CounterStore.increment now key window policy s.counters
    (answer, { s with counters })
  ttl now key s :=
    let (answer, counters) := CounterStore.ttl now key s.counters
    (answer, { s with counters })

instance [CacheStore τ] : CacheStore (Apart σ τ) where
  get now key s :=
    let (answer, values) := CacheStore.get now key s.values
    (answer, { s with values })
  set now key value ttl s :=
    let (answer, values) := CacheStore.set now key value ttl s.values
    (answer, { s with values })
  deleteByPattern now pattern s :=
    let (answer, values) := CacheStore.deleteByPattern now pattern s.values
    (answer, { s with values })
  ping now s :=
    let (answer, values) := CacheStore.ping now s.values
    (answer, { s with values })

end Apart

/-! ## Keys that are kept apart -/

namespace Settings

/-- Neither the prefix of counters nor the name of the cache's space begins with the other, and a
pattern reads the name as it is. -/
structure KeepsApart (s : Settings) : Prop where
  not_prefix : Text.startsWith s.cacheSpace s.counterPrefix = false
  not_space : Text.startsWith s.counterPrefix s.cacheSpace = false
  isPlain : ∀ c ∈ s.cacheSpace.toList, Glob.IsPlain c

variable {s : Settings} {key : String}

theorem KeepsApart.not_both (h : s.KeepsApart)
    (hcounter : Text.startsWith key s.counterPrefix = true)
    (hspace : Text.startsWith key s.cacheSpace = true) : False := by
  rw [Text.startsWith_iff] at hcounter hspace
  rcases List.prefix_or_prefix_of_prefix hcounter hspace with hprefix | hprefix
  · exact absurd (Text.startsWith_iff.mpr hprefix) (by rw [h.not_prefix]; decide)
  · exact absurd (Text.startsWith_iff.mpr hprefix) (by rw [h.not_space]; decide)

theorem KeepsApart.isMatch_iff (h : s.KeepsApart) :
    Glob.isMatch s.purgePattern key = true ↔ Text.startsWith key s.cacheSpace = true :=
  Glob.isMatch_star_iff h.isPlain

end Settings

namespace Site

variable {s : Settings} {started : Instant} {site : Site} {l : Limiter}

theorem startsWith_counter (hstart : start s started = .ok site) (hlimiter : site.limiter = some l)
    (client : String) : Text.startsWith (l.key client) s.counterPrefix = true := by
  have hprefix : l.keyPrefix = s.counterPrefix := by
    obtain ⟨hunlimited, hlimited⟩ := limiter_of_start hstart
    cases h : s.isLimited with
    | false =>
      rw [hunlimited h] at hlimiter
      cases hlimiter
    | true =>
      obtain ⟨l', hl', -, -, hprefix, -⟩ := hlimited h
      rw [hlimiter] at hl'
      exact Option.some.inj hl' ▸ hprefix
  rw [Text.startsWith_iff, Limiter.key, hprefix, String.toList_append]
  exact List.prefix_append _ _

theorem startsWith_response (hstart : start s started = .ok site) {key : String}
    (hkey : site.IsCacheKey key) : Text.startsWith key s.cacheSpace = true := by
  obtain ⟨req, rfl⟩ := hkey
  obtain rfl := settings_of_start hstart
  exact Settings.startsWith_key _ _ _ _ _

/-! ## What is shown -/

/-- From now on, the shared store shows of the counters and of the responses what the two stores
show of them. -/
structure Shows (s : Settings) (now : Instant) (shared : MemoryStore)
    (two : Apart MemoryStore MemoryStore) : Prop where
  counter : ∀ key, Text.startsWith key s.counterPrefix = true → ∀ later, now ≤ later →
    shared.live? later key = two.counters.live? later key
  response : ∀ key, Text.startsWith key s.cacheSpace = true → ∀ later, now ≤ later →
    shared.live? later key = two.values.live? later key

namespace Shows

variable {now : Instant} {shared : MemoryStore} {two : Apart MemoryStore MemoryStore} {key : String}

theorem new (s : Settings) (now created created₁ created₂ : Instant) :
    Shows s now (.new created) ⟨.new created₁, .new created₂⟩ :=
  ⟨fun _ _ _ _ ↦ rfl, fun _ _ _ _ ↦ rfl⟩

theorem lasts {later : Instant} (h : Shows s now shared two) (hlater : now ≤ later) :
    Shows s later shared two :=
  ⟨fun key hkey t ht ↦ h.counter key hkey t (Nat.le_trans hlater ht),
    fun key hkey t ht ↦ h.response key hkey t (Nat.le_trans hlater ht)⟩

/-- Counting: the counter goes on from the same entry, and no response is under its key. -/
theorem increment (h : Shows s now shared two) (hs : s.KeepsApart)
    (hkey : Text.startsWith key s.counterPrefix = true) (window : Duration)
    (policy : ExpiryPolicy) :
    (shared.increment now key window policy).1 = (two.counters.increment now key window policy).1 ∧
      Shows s now (shared.increment now key window policy).2
        { two with counters := (two.counters.increment now key window policy).2 } := by
  have hbefore := h.counter key hkey now (Nat.le_refl now)
  refine ⟨?_, ⟨fun other hother later hlater ↦ ?_, fun other hother later hlater ↦ ?_⟩⟩
  · rw [MemoryStore.increment_fst, MemoryStore.increment_fst, hbefore]
  · rw [MemoryStore.live?_increment _ _ hlater, MemoryStore.live?_increment _ _ hlater, hbefore,
      h.counter other hother later hlater]
  · have hne : other ≠ key := fun heq ↦ hs.not_both hkey (heq ▸ hother)
    rw [MemoryStore.live?_increment _ _ hlater, if_neg hne]
    exact h.response other hother later hlater

theorem ttl_eq (h : Shows s now shared two) (hkey : Text.startsWith key s.counterPrefix = true) :
    shared.ttl now key = two.counters.ttl now key := by
  rw [MemoryStore.ttl, MemoryStore.ttl, h.counter key hkey now (Nat.le_refl now)]

theorem get (h : Shows s now shared two) (hkey : Text.startsWith key s.cacheSpace = true) :
    (shared.get now key).1 = (two.values.get now key).1 ∧
      Shows s now (shared.get now key).2 { two with values := (two.values.get now key).2 } := by
  refine ⟨?_, ⟨fun other hother later hlater ↦ ?_, fun other hother later hlater ↦ ?_⟩⟩
  · rw [MemoryStore.get_fst, MemoryStore.get_fst, h.response key hkey now (Nat.le_refl now)]
  · exact (MemoryStore.live?_get hlater).trans (h.counter other hother later hlater)
  · rw [MemoryStore.live?_get hlater, MemoryStore.live?_get hlater]
    exact h.response other hother later hlater

/-- Storing: no counter is under the key of a response. -/
theorem set (h : Shows s now shared two) (hs : s.KeepsApart)
    (hkey : Text.startsWith key s.cacheSpace = true) (value : Bytes) (ttl : Duration) :
    Shows s now (shared.set now key value ttl)
      { two with values := two.values.set now key value ttl } := by
  refine ⟨fun other hother later hlater ↦ ?_, fun other hother later hlater ↦ ?_⟩
  · have hne : other ≠ key := fun heq ↦ hs.not_both (heq ▸ hother) hkey
    rw [MemoryStore.live?_set _ _ hlater, if_neg hne]
    exact h.counter other hother later hlater
  · rw [MemoryStore.live?_set _ _ hlater, MemoryStore.live?_set _ _ hlater,
      h.response other hother later hlater]

/-- Purging: what is deleted are the responses. -/
theorem deleteByPattern (h : Shows s now shared two) (hs : s.KeepsApart) :
    (shared.deleteByPattern now s.purgePattern).1
        = (two.values.deleteByPattern now s.purgePattern).1 ∧
      Shows s now (shared.deleteByPattern now s.purgePattern).2
        { two with values := (two.values.deleteByPattern now s.purgePattern).2 } := by
  refine ⟨?_, ⟨fun other hother later hlater ↦ ?_, fun other hother later hlater ↦ ?_⟩⟩
  · refine Table.count_eq_of_find?_eq fun key ↦ ?_
    cases hmatch : Glob.isMatch s.purgePattern key with
    | false => simp
    | true =>
      simp only [Bool.true_and]
      exact h.response key (hs.isMatch_iff.mp hmatch) now (Nat.le_refl now)
  · have hkept : ¬ Glob.isMatch s.purgePattern other = true := fun hmatch ↦
      hs.not_both hother (hs.isMatch_iff.mp hmatch)
    rw [MemoryStore.live?_deleteByPattern, if_neg hkept]
    exact h.counter other hother later hlater
  · rw [MemoryStore.live?_deleteByPattern, MemoryStore.live?_deleteByPattern,
      h.response other hother later hlater]

end Shows

/-- **The stores answer alike** what a site asks them. -/
theorem links_shows (hstart : start s started = .ok site) (hs : s.KeepsApart) :
    site.Links (Shows s) where
  lasts h := h.lasts
  increment h l hlimiter client :=
    have ⟨hcount, hshows⟩ :=
      h.increment hs (startsWith_counter hstart hlimiter client) l.window l.policy
    .ok hcount hshows
  ttl h _ hlimiter client := .ok (h.ttl_eq (startsWith_counter hstart hlimiter client)) h
  get h _ hkey :=
    have ⟨hvalue, hshows⟩ := h.get (startsWith_response hstart hkey)
    .ok hvalue hshows
  set h _ hkey value ttl := .ok rfl (h.set hs (startsWith_response hstart hkey) value ttl)
  deleteByPattern h := by
    obtain ⟨hdeleted, hshows⟩ := h.deleteByPattern hs
    rw [settings_of_start hstart]
    exact .ok hdeleted hshows
  ping h := .ok rfl h

/-! ## Nobody can tell -/

/-- What it comes to that a site which has answered nothing yet counts its clients and stores its
responses in one store. -/
structure SharingUnobservable (site : Site) (s : Settings) (around : Surroundings)
    (shared : Serving MemoryStore) (two : Serving (Apart MemoryStore MemoryStore)) : Prop where
  /-- Whatever is asked, clients are told what they would be told if there were two stores. -/
  told : ∀ steps, shared.transcript site around steps = two.transcript site around steps
  /-- And whatever has been asked, the store shows what the two stores would show. -/
  shows : ∀ steps : List Serving.Step,
    Shows s (steps.foldl (Serving.step site around) shared).world.now
      (steps.foldl (Serving.step site around) shared).world.store
      (steps.foldl (Serving.step site around) two).world.store
  /-- A request does nothing to the counters but to count its client, even if it purges the
  cache. -/
  counters : ∀ (req : Request) (w : World MemoryStore) (l : Limiter) (client : String)
    (later : Instant), site.limiter = some l → w.now ≤ later →
      (site.answer around req w).2.store.live? later (l.key client)
        = (l.count (req.clientIp site.trust) w).2.store.live? later (l.key client)
  /-- Whatever a client is called, its counter is not under the key of a response, and counting it
  does nothing to the responses. -/
  responses : ∀ (l : Limiter) (client : String) (req : Request), site.limiter = some l →
    l.key client ≠ site.cacheSettings.key req ∧
      ∀ (w : World MemoryStore) (later : Instant), w.now ≤ later →
        (l.count client w).2.store.live? later (site.cacheSettings.key req)
          = w.store.live? later (site.cacheSettings.key req)

theorem key_ne_key (hstart : start s started = .ok site) (hs : s.KeepsApart)
    (hlimiter : site.limiter = some l) (client : String) (req : Request) :
    l.key client ≠ site.cacheSettings.key req := fun heq ↦
  hs.not_both (startsWith_counter hstart hlimiter client)
    (heq ▸ startsWith_response hstart ⟨req, rfl⟩)

/-- A request does nothing to the counters but to count its client: what it stores is under other
keys, and what it deletes has other keys. -/
theorem live?_answer (hstart : start s started = .ok site) (hs : s.KeepsApart)
    (around : Surroundings) (req : Request) (w : World MemoryStore)
    (hlimiter : site.limiter = some l) (client : String) {later : Instant}
    (hlater : w.now ≤ later) :
    (site.answer around req w).2.store.live? later (l.key client)
      = (l.count (req.clientIp site.trust) w).2.store.live? later (l.key client) := by
  have haside := (site.aside_answer around req w).1
  rw [countedIn, hlimiter] at haside
  have hcounter := startsWith_counter hstart hlimiter client
  obtain ⟨-, notes, hnotes, hlive⟩ := haside.live?_eq
  obtain ⟨notes', hnotes'⟩ := haside.exists_notes
  obtain rfl := List.append_cancel_left (hnotes.symm.trans hnotes'.journal_eq)
  have hstored : ¬ (site.scope (req.clientIp site.trust)).own (l.key client) := fun hown ↦
    hs.not_both hcounter (startsWith_response hstart hown)
  have hdeleted : ¬ notes.Purges (l.key client) := by
    rintro ⟨pattern, hpattern, hmatch⟩
    obtain rfl : pattern = site.settings.purgePattern := hnotes'.purges pattern hpattern
    rw [settings_of_start hstart] at hmatch
    exact hs.not_both hcounter (hs.isMatch_iff.mp hmatch)
  exact hlive _ hstored hdeleted later hlater

/-- **Sharing a store is unobservable**, if the settings keep the keys apart. -/
theorem sharing_unobservable (hstart : start s started = .ok site) (hs : s.KeepsApart)
    (around : Surroundings) (now created created₁ created₂ : Instant) :
    site.SharingUnobservable s around (.start (.new created) now)
      (.start ⟨.new created₁, .new created₂⟩ now) := by
  have hlinked : Serving.Linked site (Shows s) (.start (.new created) now)
      (.start ⟨.new created₁, .new created₂⟩ now) :=
    ⟨⟨rfl, rfl, .new s now created created₁ created₂⟩, rfl, fun _ h ↦ absurd h List.not_mem_nil⟩
  have hlinks := links_shows hstart hs
  constructor
  case told =>
    intro steps
    have halike := hlinked.transcript_alike Eq hlinks (.refl around) (fun _ _ _ ↦ rfl) steps
    exact List.forall₂_eq_eq_eq ▸ halike.imp fun _ _ h ↦ h.eq
  case shows =>
    intro steps
    exact (hlinked.run hlinks (.refl around) steps).worlds.stores
  case counters =>
    intro req w l client later hlimiter hlater
    exact live?_answer hstart hs around req w hlimiter client hlater
  case responses =>
    intro l client req hlimiter
    have hne := key_ne_key hstart hs hlimiter client req
    refine ⟨hne, fun w later hlater ↦ ?_⟩
    exact (MemoryStore.live?_increment _ _ hlater).trans (if_neg hne.symm)

/-- Two requests a minute, everything else as it is if nothing is said. A client that calls itself
after the keys of responses asks, and an administrator behind the same address purges the cache; the
next request is beyond the limit all the same. -/
theorem sharing_unobservable_default :
    let s := { Settings.default with limit := 2 }
    let site : Site :=
      ⟨s, 0, some ⟨2, Duration.ofSecs 60, "rate_limit:", .rolling, by decide, by decide⟩⟩
    let around : Surroundings :=
      ⟨fun _ _ ↦ .ok ⟨"7", 60, 0⟩, fun id ↦ .ok ⟨id, "", "", "admin"⟩, id⟩
    let named : Headers := [("x-forwarded-for", utf8 "cache:*"), ("cookie", utf8 "auth_token=t")]
    let ask (method : Http.Method) (path : String) : Serving.Step :=
      .request ⟨method, ⟨path, none⟩, named, none, none, none, none⟩
    let shared : Serving MemoryStore := .start (.new 0) 0
    let two : Serving (Apart MemoryStore MemoryStore) := .start ⟨.new 0, .new 0⟩ 0
    start s 0 = .ok site ∧ s.KeepsApart ∧ site.SharingUnobservable s around shared two ∧
      ((two.transcript site around [ask .get "/stats", .poll 0, .poll 0,
        ask .post "/admin/cache/purge", ask .get "/stats"]).filterMap fun
          | .response r => some r.status.code
          | _ => none) = [200, 204, 429] := by
  intro s site around named ask shared two
  have hplain : s.cacheSpace.toList.all (fun c ↦ decide (Glob.IsPlain c)) = true := by
    decide +kernel
  have hs : s.KeepsApart :=
    ⟨by decide +kernel, by decide +kernel,
      by simpa only [List.all_eq_true, decide_eq_true_eq] using hplain⟩
  exact ⟨rfl, hs, sharing_unobservable rfl hs around 0 0 0 0, by decide +kernel⟩

end Site

end Gatehouse
