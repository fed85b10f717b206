import Gatehouse.Proofs.Site.Twins
import Gatehouse.Store.Faulty

/-!
# What goes wrong inside is not told

A store that fails says why, and so do a directory without an answer and a validator that does not
accept a token. The log tells all of it. Clients are told none: **`Site.Serving.told_discreetly`**
sets two runs side by side in which the same goes wrong for different reasons, and finds every
response the same in status, header fields and body, the id of the request aside.

## What may differ

The reasons for which a store fails may be others at every call, and the two stores need not follow
any rule with them. A run has one validator and one directory from its beginning to its end; these
may give other reasons in the one run than in the other, but the same ones throughout a run, for an
id and for a token at an instant. Whether something fails has to be the same in both runs, and so
does whether a token has expired, which clients are told. The failures that a cache swallows matter
as well: they decide what is stored and hence what is answered later.
-/

namespace Gatehouse

/-! ## Header fields with another id -/

/-- The two fields are the same, or both carry the id of a request. -/
def FieldSameButId (f f' : String × Bytes) : Prop :=
  f.1 = f'.1 ∧ (f.1 ≠ requestIdField → f.2 = f'.2)

namespace Headers

/-- The same fields in the same order, the ids of requests aside. -/
abbrev SameButId : Headers → Headers → Prop := List.Forall₂ FieldSameButId

variable {h h' : Headers}

theorem SameButId.refl (h : Headers) : h.SameButId h :=
  List.forall₂_same.mpr fun _ _ ↦ ⟨rfl, fun _ ↦ rfl⟩

theorem SameButId.contains_eq (hh : h.SameButId h') (name : String) :
    h.contains name = h'.contains name := by
  induction hh with
  | nil => rfl
  | cons hf _ ih =>
    rw [contains, contains, List.any_cons, List.any_cons, hf.1]
    exact congrArg _ ih

theorem SameButId.insert (hh : h.SameButId h') {name : String} {value value' : Bytes}
    (hvalue : name ≠ requestIdField → value = value') :
    (h.insert name value).SameButId (h'.insert name value') := by
  induction hh with
  | nil => exact .cons ⟨rfl, hvalue⟩ .nil
  | @cons f f' rest rest' hf hrest ih =>
    rw [Headers.insert, Headers.insert, hf.1]
    split_ifs
    · refine .cons ⟨rfl, hvalue⟩ (List.rel_filter (fun g g' hg ↦ ?_) hrest)
      simp only [hg.1]
    · exact .cons hf ih

theorem SameButId.insertMissing (hh : h.SameButId h') (name : String) (value : Bytes) :
    (h.insertMissing name value).SameButId (h'.insertMissing name value) := by
  rw [Headers.insertMissing, Headers.insertMissing, hh.contains_eq]
  split_ifs
  · exact hh
  · exact hh.insert fun _ ↦ rfl

end Headers

/-- Two responses that are the same, the id of the request aside. -/
structure Response.SameButId (r r' : Response) : Prop where
  status_eq : r.status = r'.status
  headers : r.headers.SameButId r'.headers
  body_eq : r.body = r'.body

namespace Site

theorem sameButId_finished (method : Http.Method) (allowed : Option String) {r r' : Response}
    (h : r.SameButId r') : (finished method allowed r).SameButId (finished method allowed r') := by
  refine ⟨h.status_eq, ?_, ?_⟩
  · simp only [finished, ← h.body_eq]
    rcases allowed with _ | methods <;> rcases r.body.hint.exact? with _ | n
    · exact h.headers
    · exact h.headers.insertMissing _ _
    · exact h.headers.insertMissing _ _
    · exact (h.headers.insertMissing _ _).insertMissing _ _
  · simp only [finished, h.body_eq]

/-- A response that leaves the site shows the id it was given in one field and nowhere else. -/
theorem sameButId_dressed (req : Request) (id id' : String) (r : Response) :
    (dressed req id r).SameButId (dressed req id' r) := by
  have hmarked : (marked id r).SameButId (marked id' r) :=
    ⟨rfl, (Headers.SameButId.refl r.headers.secured).insert fun h ↦ absurd rfl h, rfl⟩
  rw [dressed, dressed]
  split
  · exact sameButId_finished _ _ hmarked
  · split
    · exact hmarked
    · exact sameButId_finished _ _ hmarked

/-! ## Whole runs -/

section

variable {σ τ : Type} [CounterStore σ] [CacheStore σ] [CounterStore τ] [CacheStore τ]

/-- **What goes wrong inside is not told.** The same requests are sent at the same times, bodies are
read and dropped at the same times, and the stores, the validators and the directories answer alike.
Then all that clients are told is the same, the ids of the requests aside. -/
theorem Serving.told_discreetly (site : Site) {around around' : Surroundings}
    (haround : around.Alike around') {R : Link σ τ} (hR : site.Links R) {s : σ} {t : τ}
    {now : Instant} (hst : R now s t) (steps : List Serving.Step) :
    List.Forall₂ (Told.Alike Response.SameButId)
      ((start s now).transcript site around steps) ((start t now).transcript site around' steps) :=
  Linked.transcript_alike _ hR haround (fun req _ r ↦ sameButId_dressed req _ _ r)
    ⟨⟨rfl, rfl, hst⟩, rfl, fun _ h ↦ absurd h List.not_mem_nil⟩ steps

end

end Site

/-! ## Stores that fail for another reason -/

namespace Faulty

variable {σ α : Type}

/-- The two stores hold the same and fail at the same, for whatever reasons. -/
def Alike (_ : Instant) (s t : Faulty σ) : Prop := s.inner = t.inner ∧ s.failing = t.failing

theorem answers_guard (op : StoreOp) (access : Access σ α) {now : Instant} {s t : Faulty σ}
    (h : Alike now s t) : Link.Answers Alike now (guard op access s) (guard op access t) := by
  obtain ⟨hinner, hfailing⟩ := h
  rw [guard, guard, ← hinner, ← hfailing]
  split_ifs
  · exact ⟨.error trivial, hinner, hfailing⟩
  · exact ⟨.refl (fun _ ↦ trivial) _, rfl, rfl⟩

theorem links [CounterStore σ] [CacheStore σ] (site : Site) :
    site.Links (Alike : Link (Faulty σ) (Faulty σ)) where
  lasts h _ := h
  increment h _ _ _ := answers_guard .increment _ h
  ttl h _ _ _ := answers_guard .ttl _ h
  get h _ _ := answers_guard .get _ h
  set h _ _ _ _ := answers_guard .set _ h
  deleteByPattern h := answers_guard .deleteByPattern _ h
  ping h := answers_guard .ping _ h

end Faulty

/-- The store cannot be read nor written and does not answer, one time because of a timeout and the
other time because it is loading. One directory has no such user, the other one is not there. One
validator does not like a signature, the other one a letter. -/
theorem Site.Serving.told_discreetly_failing :
    let site : Site :=
      ⟨Settings.default, 0, some ⟨100, Duration.ofSecs 60, "rate_limit:", .rolling, by decide,
        by decide⟩⟩
    let store (reason : String) : Faulty MemoryStore := ⟨.new 0, [.get, .set, .ping], reason⟩
    let validate (reason : String) (_ : Instant) (token : String) : Except TokenError Claims :=
      if token = "signed" then .ok ⟨"7", 60, 0⟩ else .error (.invalid reason)
    let around : Surroundings := ⟨validate "InvalidSignature", fun id ↦ .error (.notFound id), id⟩
    let around' : Surroundings := ⟨validate "Base64", fun _ ↦ .error (.backend "refused"), (7 * ·)⟩
    let ask (path : String) (headers : Headers) : Serving.Step :=
      .request ⟨.get, ⟨path, none⟩, headers, none, none, none, none⟩
    let steps := [ask "/ready" [], ask "/me" [("cookie", utf8 "auth_token=signed")],
      ask "/me" [("cookie", utf8 "auth_token=altered")], .wait nanosPerSec, ask "/stats" [],
      .poll 3, .poll 3, ask "/stats" []]
    let told := (start (store "timeout") 0).transcript site around steps
    let told' := (start (store "loading") 0).transcript site around' steps
    around.Alike around' ∧ site.Links (Faulty.Alike : Link (Faulty MemoryStore) _) ∧
      Faulty.Alike 0 (store "timeout") (store "loading") ∧
      List.Forall₂ (Told.Alike Response.SameButId) told told' ∧
      (told.filterMap fun
        | .response r => some r.status.code
        | _ => none) = [503, 500, 401, 200, 200] := by
  intro site store validate around around' ask steps told told'
  have haround : around.Alike around' := by
    refine ⟨fun now token ↦ ?_, fun id ↦ .error trivial⟩
    simp only [around, around', validate]
    split_ifs
    · exact .ok _
    · exact .error ⟨nofun, nofun⟩
  have hstores : Faulty.Alike 0 (store "timeout") (store "loading") := ⟨rfl, rfl⟩
  exact ⟨haround, Faulty.links site, hstores, told_discreetly site haround (Faulty.links site)
    hstores steps, by decide +kernel⟩

end Gatehouse
