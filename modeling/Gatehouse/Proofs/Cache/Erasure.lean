import Gatehouse.Layer
import Gatehouse.Proofs.Cache.Copying
import Gatehouse.Proofs.Cache.Reading
import Gatehouse.Proofs.Store.Live

/-!
# What the layers do to the keys of a cache

Between a look into the cache and the end of the body that answers it, nothing is written under a
key of the cache, and what is deleted is noted in the journal. `CacheSettings.Erases` says so of two
states of a run with a store in memory. It holds of every single step, it is transitive, and what
the steps note adds up; so it holds of all layers around a handler that leaves the keys of the cache
alone.

The view that is compared is that of all instants from the later state on. Whatever is swept out
meanwhile is not in it.
-/

namespace Gatehouse

/-! ## What a journal says about a key -/

namespace Journal

/-- Something was written under a key. -/
def Writes (j : Journal) (key : String) : Prop := (⟨.set, key⟩ : StoreCall) ∈ j.calls

/-- The patterns whose keys were deleted, in the order of their deletion. -/
def deleted (j : Journal) : List String :=
  j.calls.filterMap fun c ↦ if c.op = .deleteByPattern then some c.subject else none

/-- The keys that match some pattern were deleted, and the key is one of them. -/
def Purges (j : Journal) (key : String) : Prop :=
  ∃ pattern ∈ j.deleted, Glob.isMatch pattern key = true

instance (j : Journal) (key : String) : Decidable (j.Writes key) :=
  inferInstanceAs (Decidable (_ ∈ _))

instance (j : Journal) (key : String) : Decidable (j.Purges key) :=
  inferInstanceAs (Decidable (∃ pattern ∈ _, _))

theorem writes_append {j j' : Journal} {key : String} :
    (j ++ j').Writes key ↔ j.Writes key ∨ j'.Writes key := by
  simp [Writes, calls]

theorem visits_append (j j' : Journal) : (j ++ j').visits = j.visits ++ j'.visits :=
  List.filterMap_append

theorem deleted_append (j j' : Journal) : (j ++ j').deleted = j.deleted ++ j'.deleted := by
  simp only [deleted, calls, List.filterMap_append]

theorem purges_append {j j' : Journal} {key : String} :
    (j ++ j').Purges key ↔ j.Purges key ∨ j'.Purges key := by
  simp only [Purges, deleted_append, List.mem_append, or_and_right, exists_or]

theorem deleted_of_calls_eq_nil {j : Journal} (h : j.calls = []) : j.deleted = [] := by
  rw [deleted, h, List.filterMap_nil]

theorem not_purges_of_deleted_eq_nil {j : Journal} (h : j.deleted = []) (key : String) :
    ¬ j.Purges key := by
  rintro ⟨pattern, hpattern, -⟩
  rw [h] at hpattern
  cases hpattern

end Journal

namespace CacheSettings

variable {settings : CacheSettings} {w w' w'' : World MemoryStore} {notes notes' : Journal}

/-! ## States between which nothing is written -/

/-- From one state to a later one nothing is written under a key of the cache, and all that is
deleted is what the notes say. -/
structure Erases (settings : CacheSettings) (w w' : World MemoryStore) (notes : Journal) :
    Prop where
  now_le : w.now ≤ w'.now
  journal_eq : w'.journal = w.journal ++ notes
  not_writes : ∀ req, ¬ notes.Writes (settings.key req)
  live?_eq : ∀ req later, w'.now ≤ later → w'.store.live? later (settings.key req) =
    if notes.Purges (settings.key req) then none else w.store.live? later (settings.key req)

namespace Erases

theorem trans (h : settings.Erases w w' notes) (h' : settings.Erases w' w'' notes') :
    settings.Erases w w'' (notes ++ notes') where
  now_le := Nat.le_trans h.now_le h'.now_le
  journal_eq := by rw [h'.journal_eq, h.journal_eq, List.append_assoc]
  not_writes req hwrites :=
    (Journal.writes_append.mp hwrites).elim (h.not_writes req) (h'.not_writes req)
  live?_eq req later hlater := by
    rw [h'.live?_eq req later hlater, h.live?_eq req later (Nat.le_trans h'.now_le hlater)]
    simp only [Journal.purges_append]
    by_cases hp' : notes'.Purges (settings.key req)
    · rw [if_pos hp', if_pos (.inr hp')]
    · by_cases hp : notes.Purges (settings.key req)
      · rw [if_neg hp', if_pos hp, if_pos (.inl hp)]
      · rw [if_neg hp', if_neg hp, if_neg (not_or.mpr ⟨hp, hp'⟩)]

/-- Time passes, and something is noted that is no call of the store. -/
theorem of_note (notes : Journal) (d : Duration) (hcalls : notes.calls = []) : settings.Erases w
    { w with now := w.now + d, journal := w.journal ++ notes } notes where
  now_le := Nat.le_add_right _ _
  journal_eq := rfl
  not_writes req hwrites := by
    rw [Journal.Writes, hcalls] at hwrites
    cases hwrites
  live?_eq req later hlater := by
    rw [if_neg (Journal.not_purges_of_deleted_eq_nil (Journal.deleted_of_calls_eq_nil hcalls) _)]

theorem of_get (key : String) : settings.Erases w (Run.get key w).2 [.call ⟨.get, key⟩] where
  now_le := Nat.le_refl _
  journal_eq := rfl
  not_writes req hwrites := by
    cases hwrites with
    | tail _ h => cases h
  live?_eq req later hlater := by
    rw [if_neg (Journal.not_purges_of_deleted_eq_nil rfl _)]
    exact MemoryStore.live?_get hlater

theorem of_deleteByPattern (pattern : String) : settings.Erases w
    (Run.deleteByPattern pattern w).2 [.call ⟨.deleteByPattern, pattern⟩] where
  now_le := Nat.le_refl _
  journal_eq := rfl
  not_writes req hwrites := by
    cases hwrites with
    | tail _ h => cases h
  live?_eq req later hlater := by
    have hpurges : Journal.Purges [.call ⟨.deleteByPattern, pattern⟩] (settings.key req)
        ↔ Glob.isMatch pattern (settings.key req) = true := by
      refine ⟨fun ⟨p, hp, hmatch⟩ ↦ ?_, fun hmatch ↦ ⟨pattern, List.mem_singleton.mpr rfl, hmatch⟩⟩
      rw [List.mem_singleton.mp hp] at hmatch
      exact hmatch
    simp only [hpurges]
    exact MemoryStore.live?_deleteByPattern w.now pattern

end Erases

end CacheSettings

/-! ## Layers -/

namespace Service

variable {settings : CacheSettings} (around : Surroundings)

/-- Between two states the handler was visited as given, the keys of the given patterns were
deleted, and nothing was written under a key of the cache. -/
def Traces (settings : CacheSettings) (visits : List Visit) (deleted : List String)
    (w w' : World MemoryStore) : Prop :=
  ∃ notes : Journal, settings.Erases w w' notes ∧ notes.visits = visits ∧ notes.deleted = deleted

theorem Traces.trans {visits visits' : List Visit} {deleted deleted' : List String}
    {w w' w'' : World MemoryStore} (h : Traces settings visits deleted w w')
    (h' : Traces settings visits' deleted' w' w'') :
    Traces settings (visits ++ visits') (deleted ++ deleted') w w'' := by
  obtain ⟨notes, herases, rfl, rfl⟩ := h
  obtain ⟨notes', herases', rfl, rfl⟩ := h'
  exact ⟨notes ++ notes', herases.trans herases', Journal.visits_append notes notes',
    Journal.deleted_append notes notes'⟩

/-- A further step in which nothing is visited and nothing deleted. -/
theorem Traces.trans_nil {visits : List Visit} {deleted : List String}
    {w w' w'' : World MemoryStore} (h : Traces settings visits deleted w w')
    (h' : Traces settings [] [] w' w'') : Traces settings visits deleted w w'' := by
  have htrans := h.trans h'
  rwa [List.append_nil, List.append_nil] at htrans

theorem traces_note (settings : CacheSettings) (w : World MemoryStore) (d : Duration)
    (notes : Journal) (hcalls : notes.calls = []) :
    Traces settings notes.visits [] w
      { w with now := w.now + d, journal := w.journal ++ notes } :=
  ⟨notes, .of_note notes d hcalls, rfl, Journal.deleted_of_calls_eq_nil hcalls⟩

theorem Traces.refl (w : World MemoryStore) : Traces settings [] [] w w := by
  have h := traces_note settings w 0 [] rfl
  rwa [List.append_nil] at h

theorem traces_invalidation (pattern : String) (w : World MemoryStore) :
    Traces settings [] [pattern] w (invalidation pattern w).2 :=
  ⟨_, (CacheSettings.Erases.of_deleteByPattern pattern).trans
    (.of_note [.metric (.cacheInvalidation true)] 0 rfl), rfl, rfl⟩

/-- Around any service, layers that invalidate delete the keys of their patterns, the innermost
first, and change nothing about the response. -/
theorem stacked_invalidate (settings : CacheSettings) (patterns : List String)
    (inner : Service MemoryStore) (req : Request) (w : World MemoryStore) :
    (stacked around (patterns.map .invalidate) inner req w).1 = (inner req w).1 ∧
      Traces settings [] patterns.reverse (inner req w).2
        (stacked around (patterns.map .invalidate) inner req w).2 := by
  induction patterns with
  | nil => exact ⟨rfl, Traces.refl _⟩
  | cons pattern patterns ih =>
    obtain ⟨hresponse, htraces⟩ := ih
    rw [List.reverse_cons]
    exact ⟨hresponse, htraces.trans (traces_invalidation pattern _)⟩

/-- In some run a handler deletes the keys of the given patterns by itself. -/
def Deletes (handler : Service MemoryStore) (own : List String) : Prop :=
  ∃ req w notes, (handler req w).2.journal = w.journal ++ notes ∧ notes.deleted = own

/-- A handler that neither writes under the keys of the cache nor deletes any in secret, and whose
bodies carry no copies. -/
structure Apart (settings : CacheSettings) (handler : Service MemoryStore) : Prop where
  traces : ∀ req w, ∃ own, Traces settings [] own w (handler req w).2
  idle : ∀ req w, (handler req w).1.body.IsIdle

/-- Layers that invalidate around a handler: it is visited once, and its response stays. -/
theorem Apart.stacked_invalidate {handler : Service MemoryStore} (h : Apart settings handler)
    (patterns : List String) (req : Request) (w : World MemoryStore) :
    (stacked around (patterns.map .invalidate) (observed handler) req w).1.body.IsIdle ∧
      ∃ own, handler.Deletes own ∧
        Traces settings [⟨req.user, req.context⟩] (own ++ patterns.reverse) w
          (stacked around (patterns.map .invalidate) (observed handler) req w).2 := by
  obtain ⟨hresponse, htraces⟩ :=
    Service.stacked_invalidate around settings patterns (observed handler) req w
  let visited : World MemoryStore :=
    { w with journal := w.journal ++ [.visit ⟨req.user, req.context⟩] }
  have hvisit : Traces settings [⟨req.user, req.context⟩] [] w visited :=
    traces_note settings w 0 [.visit ⟨req.user, req.context⟩] rfl
  obtain ⟨own, hown⟩ := h.traces req visited
  have hdeletes : handler.Deletes own := by
    obtain ⟨notes, herases, -, hdeleted⟩ := hown
    exact ⟨req, visited, notes, herases.journal_eq, hdeleted⟩
  rw [hresponse]
  exact ⟨h.idle _ _, own, hdeletes, (hvisit.trans hown).trans htraces⟩

/-! ## Looking and copying -/

/-- The response that is replayed from what a key holds, if there is one. -/
def replayed? (e : Option Entry) : Option Response :=
  e.bind fun e ↦
    match Cache.Entry.restore e.held.octets with
    | .error _ => none
    | .ok (status, headers, body) => some (.ofBytes status headers body)

/-- A look into the cache finds what can be replayed of the live entry. -/
theorem lookup?_spec (settings : CacheSettings) (key : String) (w : World MemoryStore) :
    (lookup? key w).1 = replayed? (w.store.live? w.now key) ∧
      Traces settings [] [] w (lookup? key w).2 := by
  have hanswer : (Run.get key w).1 = .ok ((w.store.live? w.now key).map fun e ↦ e.held.octets) := by
    rw [← MemoryStore.get_fst]
    rfl
  have htraces : ∀ notes : Journal, notes.calls = [] → notes.visits = [] →
      Traces settings [] [] w { (Run.get key w).2 with
        journal := (Run.get key w).2.journal ++ notes } := fun notes hcalls hvisits ↦
    ⟨_, (CacheSettings.Erases.of_get key).trans (.of_note notes 0 hcalls), hvisits,
      Journal.deleted_of_calls_eq_nil (j := notes) hcalls⟩
  rcases hget : Run.get key w with ⟨answer, w'⟩
  rw [hget] at hanswer htraces
  generalize w.store.live? w.now key = held at hanswer ⊢
  subst hanswer
  rcases held with _ | e
  · simp only [lookup?, bind, StateT.bind, hget]
    exact ⟨rfl, htraces [.metric (.cacheLookup .miss)] rfl rfl⟩
  · cases hrestore : Cache.Entry.restore e.held.octets with
    | error err =>
      simp only [lookup?, bind, StateT.bind, hget, Option.map_some, hrestore, replayed?,
        Option.bind_some]
      refine ⟨rfl, ?_⟩
      have hnoted := htraces [.metric (.cacheLookup .error), .event (.unreadable key err)] rfl rfl
      rw [← List.singleton_append, ← List.append_assoc] at hnoted
      exact hnoted
    | ok response =>
      simp only [lookup?, bind, StateT.bind, hget, Option.map_some, hrestore, replayed?,
        Option.bind_some]
      exact ⟨rfl, htraces [.metric (.cacheLookup .hit)] rfl rfl⟩

/-- A response leaves with an empty copy, or it may not be stored and leaves as it is. -/
theorem capturing_spec (settings : CacheSettings) (key : String) (r : Response)
    (w : World MemoryStore) :
    (capturing settings key r w
        = ({ r with body := .copied r.body (some (copyOf settings key r)) }, w) ∧
      (settings.Storable r ↔
        (r.body.frames.flatMap Frame.octets).length ≤ settings.maxEntryBytes)) ∨
    (¬ settings.Storable r ∧ (capturing settings key r w).1 = r ∧
      Traces settings [] [] w (capturing settings key r w).2) := by
  rw [capturing]
  split_ifs with hok hcookie hlong
  · exact .inr ⟨fun h ↦ hok h.1, rfl, Traces.refl w⟩
  · refine .inr ⟨fun h ↦ ?_, rfl, traces_note settings w 0 [.metric (.cacheStore .skipped)] rfl⟩
    rw [h.2.1] at hcookie
    cases hcookie
  · refine .inr ⟨fun h ↦ ?_, rfl, traces_note settings w 0 [.metric (.cacheStore .skipped)] rfl⟩
    exact Nat.not_le.mpr hlong h.2.2.1
  · refine .inl ⟨rfl, fun h ↦ h.2.2.2, fun h ↦ ?_⟩
    exact ⟨Decidable.not_not.mp hok, Bool.eq_false_iff.mpr hcookie, Nat.not_lt.mp hlong, h⟩

end Service

end Gatehouse
