import Gatehouse.Failure
import Gatehouse.Proofs.Cache.Replay
import Gatehouse.Proofs.Token.Parts
import Gatehouse.User
import Mathlib.Data.List.Find
import Mathlib.Data.List.Nodup

/-!
# Records are read back among other fields

Four kinds of records are written as JSON objects: stored responses, users, claims and what clients
are told about errors. **`Records.all_readBack`** says of each of them that it is read back from its
own text, whatever its texts hold and up to the bounds of its numbers; and also from the text of any
object that has its fields in another order and others among them. What these others hold is never
asked, so it may be anything that JSON can say, nested as deep as one likes.

The first half is the round trip of a single value. The second does not repeat it: an object that is
enlarged yields the same fields under the names that a record knows, `record?_of_enlarged`, and a
record is read from these fields alone, `ReadsFields`.
-/

namespace Gatehouse

namespace Json

/-! ## Objects with more fields -/

/-- An object that has the fields of another one in any order, and besides them only fields whose
names are texts, but none of the given ones. -/
inductive Enlarged (names : List String) : Json → Json → Prop where
  | intro {fields extra all : List (Str × Json)}
      (unknown : ∀ f ∈ extra, ∃ name, f.1.text? = some name ∧ name ∉ names)
      (perm : all.Perm (fields ++ extra)) : Enlarged names (.obj fields) (.obj all)

section

variable {names : List String} {fields others : List (Str × Json)}
  {named more : List (String × Json)}

theorem namedFields?_cons_eq_some {k : Str} {v : Json} :
    namedFields? ((k, v) :: fields) = some named ↔
      ∃ name rest, k.text? = some name ∧ namedFields? fields = some rest ∧
        named = (name, v) :: rest := by
  rw [namedFields?]
  constructor
  · intro h
    split at h
    · rename_i name rest hname hrest
      cases h
      exact ⟨name, rest, hname, hrest, rfl⟩
    · cases h
  · rintro ⟨name, rest, hname, hrest, rfl⟩
    simp only [hname, hrest]

theorem namedFields?_append (hfields : namedFields? fields = some named)
    (hothers : namedFields? others = some more) :
    namedFields? (fields ++ others) = some (named ++ more) := by
  induction fields generalizing named with
  | nil =>
    cases hfields
    exact hothers
  | cons f fields ih =>
    obtain ⟨name, rest, hname, hrest, rfl⟩ := namedFields?_cons_eq_some.mp hfields
    exact namedFields?_cons_eq_some.mpr ⟨name, rest ++ more, hname, ih hrest, rfl⟩

/-- In another order, fields have the same names. -/
theorem namedFields?_of_perm (h : others.Perm fields) (hfields : namedFields? fields = some named) :
    ∃ more, namedFields? others = some more ∧ more.Perm named := by
  induction h generalizing named with
  | nil => exact ⟨named, hfields, .refl _⟩
  | cons f _ ih =>
    obtain ⟨name, rest, hname, hrest, rfl⟩ := namedFields?_cons_eq_some.mp hfields
    obtain ⟨more, hmore, hperm⟩ := ih hrest
    exact ⟨_, namedFields?_cons_eq_some.mpr ⟨name, more, hname, hmore, rfl⟩, hperm.cons _⟩
  | swap f g _ =>
    obtain ⟨name, rest, hname, hrest, rfl⟩ := namedFields?_cons_eq_some.mp hfields
    obtain ⟨name', rest', hname', hrest', rfl⟩ := namedFields?_cons_eq_some.mp hrest
    refine ⟨_, namedFields?_cons_eq_some.mpr ⟨name', _, hname', ?_, rfl⟩, .swap _ _ _⟩
    exact namedFields?_cons_eq_some.mpr ⟨name, rest', hname, hrest', rfl⟩
  | trans _ _ ih ih' =>
    obtain ⟨between, hbetween, hperm'⟩ := ih' hfields
    obtain ⟨more, hmore, hperm⟩ := ih hbetween
    exact ⟨more, hmore, hperm.trans hperm'⟩

theorem exists_namedFields?_of_unknown
    (h : ∀ f ∈ others, ∃ name, f.1.text? = some name ∧ name ∉ names) :
    ∃ more, namedFields? others = some more ∧ ∀ f ∈ more, f.1 ∉ names := by
  induction others with
  | nil => exact ⟨[], rfl, fun f hf ↦ nomatch hf⟩
  | cons f others ih =>
    obtain ⟨name, hname, hunknown⟩ := h f List.mem_cons_self
    obtain ⟨more, hmore, hall⟩ := ih fun g hg ↦ h g (List.mem_cons_of_mem f hg)
    refine ⟨_, namedFields?_cons_eq_some.mpr ⟨name, more, hname, hmore, rfl⟩, ?_⟩
    exact List.forall_mem_cons.mpr ⟨hunknown, hall⟩

/-- In another order, the fields of a record have the same values, if no name occurs twice. -/
theorem Record.field?_of_perm {r r' : Record} (h : r'.Perm r) (hnodup : (r'.map Prod.fst).Nodup)
    (name : String) : r'.field? name = r.field? name := by
  have honce : {f ∈ r' | (f.1 == name) = true}.Subsingleton := fun f hf g hg ↦
    List.inj_on_of_nodup_map hnodup hf.1 hg.1
      ((beq_iff_eq.mp hf.2).trans (beq_iff_eq.mp hg.2).symm)
  rw [field?, field?, List.find?_eq_find?_of_perm h honce]

/-- An enlarged object has the same fields under the names that are known. -/
theorem record?_of_enlarged {v w : Json} {r : Record} (h : Enlarged names v w)
    (hr : v.record? names = some r) :
    ∃ r', w.record? names = some r' ∧ ∀ name, r'.field? name = r.field? name := by
  obtain @⟨fields, extra, all, hunknown, hperm⟩ := h
  obtain ⟨named, hnamed, hknown⟩ := Option.bind_eq_some_iff.mp hr
  obtain ⟨more, hmore, hothers⟩ := exists_namedFields?_of_unknown hunknown
  obtain ⟨every, hevery, hperm'⟩ := namedFields?_of_perm hperm (namedFields?_append hnamed hmore)
  simp only [Option.ite_none_right_eq_some, Option.some.injEq] at hknown
  obtain ⟨hnodup, rfl⟩ := hknown
  have hnone : more.filter (fun f ↦ names.contains f.1) = [] :=
    List.filter_eq_nil_iff.mpr fun f hf ↦ by simpa using hothers f hf
  have hfilter : (every.filter fun f ↦ names.contains f.1).Perm
      (named.filter fun f ↦ names.contains f.1) := by
    have hfiltered := hperm'.filter fun f ↦ names.contains f.1
    rwa [List.filter_append, hnone, List.append_nil] at hfiltered
  have hnodup' := (hfilter.map Prod.fst).nodup_iff.mpr hnodup
  refine ⟨_, ?_, Record.field?_of_perm hfilter hnodup'⟩
  rw [record?, hevery, Option.bind_some]
  exact if_pos hnodup'

end

/-! ## Reading by names -/

/-- A reader of records that asks for the values of some names and for nothing else. -/
structure ReadsFields {α : Type} (names : List String) (ofJson? : Json → Option α) : Prop where
  exists_record? : ∀ {v x}, ofJson? v = some x → ∃ r, v.record? names = some r
  congr : ∀ {v w r r'}, v.record? names = some r → w.record? names = some r' →
    (∀ name, r'.field? name = r.field? name) → ofJson? w = ofJson? v

/-- What is read behind `record?` asks only for the values of names, if records with the same values
are all the same to it. -/
theorem readsFields_bind {α : Type} {names : List String} {read? : Record → Option α}
    (h : ∀ r r' : Record, (∀ name, r'.field? name = r.field? name) → read? r' = read? r) :
    ReadsFields names fun v ↦ v.record? names >>= read? where
  exists_record? hv := (Option.bind_eq_some_iff.mp hv).imp fun _ hr ↦ hr.1
  congr hr hr' hfield := by
    rw [hr, hr']
    exact h _ _ hfield

/-- A value is read from its record, in whatever order the fields stand and whatever other fields
are among them. -/
structure ReadBack {α : Type} (read? : Bytes → Option α) (names : List String) (v : Json)
    (x : α) : Prop where
  /-- It is read from the compact text of its record. -/
  print : read? v.print = some x
  enlarged : ∀ w, Enlarged names v w → read? w.print = some x

theorem ReadsFields.readBack {α : Type} {names : List String} {ofJson? : Json → Option α} {v : Json}
    {x : α} (h : ReadsFields names ofJson?) (hv : ofJson? v = some x) :
    ReadBack (fun b ↦ (parse? b).bind ofJson?) names v x where
  print := by rw [parse?_print, Option.bind_some, hv]
  enlarged w hw := by
    obtain ⟨r, hr⟩ := h.exists_record? hv
    obtain ⟨r', hr', hfield⟩ := record?_of_enlarged hw hr
    rw [parse?_print, Option.bind_some, h.congr hr hr' hfield, hv]

end Json

/-! ## The four records -/

namespace Records

open Json

/-- The names of the fields of a stored response. -/
def entryNames : List String := ["status", "headers", "body"]

/-- The names of the fields of a user. -/
def userNames : List String := ["id", "email", "name", "role"]

/-- The names of the fields of claims. -/
def claimsNames : List String := ["sub", "exp", "iat"]

/-- The names of the fields of an error. -/
def errorNames : List String := ["error", "code"]

theorem readsFields_entry : ReadsFields entryNames Cache.Entry.ofJson? :=
  readsFields_bind fun r r' h ↦ by simp only [h]

theorem readsFields_user : ReadsFields userNames User.ofJson? :=
  readsFields_bind fun r r' h ↦ by simp only [h]

theorem readsFields_claims : ReadsFields claimsNames Claims.ofJson? :=
  readsFields_bind fun r r' h ↦ by simp only [h]

theorem readsFields_error : ReadsFields errorNames ErrorBody.ofJson? :=
  readsFields_bind fun r r' h ↦ by simp only [h]

/-! ### Their own texts -/

theorem ofJson?_user (u : User) : User.ofJson? u.toJson = some u := by
  have hrecord : u.toJson.record? userNames = some [("id", .ofText u.id),
      ("email", .ofText u.email), ("name", .ofText u.name), ("role", .ofText u.role)] := by
    rw [User.toJson, record?_object]
    rfl
  rw [userNames] at hrecord
  simp [User.ofJson?, hrecord, Record.field?]

/-- A user without a name has the empty one. -/
theorem ofJson?_nameless (id email role : String) :
    User.ofJson? (object [("id", .ofText id), ("email", .ofText email), ("role", .ofText role)])
      = some ⟨id, email, "", role⟩ := by
  have hrecord : (object [("id", .ofText id), ("email", .ofText email),
      ("role", .ofText role)]).record? userNames = some [("id", .ofText id),
      ("email", .ofText email), ("role", .ofText role)] := by
    rw [record?_object]
    rfl
  rw [userNames] at hrecord
  simp [User.ofJson?, hrecord, Record.field?]

/-- A number fits a signed word of 64 bits. -/
def FitsWord (n : Int) : Prop := -(maxSigned 64 : Int) - 1 ≤ n ∧ n ≤ maxSigned 64

instance (n : Int) : Decidable (FitsWord n) := inferInstanceAs (Decidable (_ ∧ _))

theorem ofJson?_error (b : ErrorBody) : ErrorBody.ofJson? b.toJson = some b := by
  obtain ⟨text, _ | code⟩ := b
  · have hrecord : (ErrorBody.toJson ⟨text, none⟩).record? errorNames
        = some [("error", .ofText text)] := by
      rw [ErrorBody.toJson, record?_object]
      rfl
    rw [errorNames] at hrecord
    simp [ErrorBody.ofJson?, hrecord, Record.field?]
  · have hrecord : (ErrorBody.toJson ⟨text, some code⟩).record? errorNames
        = some [("error", .ofText text), ("code", .ofText code)] := by
      rw [ErrorBody.toJson, record?_object]
      rfl
    rw [errorNames] at hrecord
    simp [ErrorBody.ofJson?, hrecord, Record.field?]

/-! ## All of them -/

/-- **Records are read back**, each from its own text and from the text of any object that enlarges
it. The bounds are those of the words in which a status and times are kept. -/
theorem all_readBack :
    (∀ e : Cache.Entry, e.status ≤ maxWord 16 →
      ReadBack Cache.Entry.decode? entryNames e.toJson e) ∧
    (∀ u : User, ReadBack User.parse? userNames u.toJson u) ∧
    (∀ c : Claims, FitsWord c.exp → FitsWord c.iat →
      ReadBack Claims.parse? claimsNames c.toJson c) ∧
    (∀ b : ErrorBody, ReadBack ErrorBody.parse? errorNames b.toJson b) ∧
    (∀ id email role, ReadBack User.parse? userNames
      (object [("id", .ofText id), ("email", .ofText email), ("role", .ofText role)])
      ⟨id, email, "", role⟩) ∧
    ∀ text, ErrorBody.toJson ⟨text, none⟩ = object [("error", .ofText text)] := by
  refine ⟨fun e hstatus ↦ ?_, fun u ↦ ?_, fun c hexp hiat ↦ ?_, fun b ↦ ?_,
    fun id email role ↦ ?_, fun text ↦ rfl⟩
  · exact readsFields_entry.readBack (Cache.Entry.ofJson?_toJson hstatus)
  · exact readsFields_user.readBack (ofJson?_user u)
  · exact readsFields_claims.readBack (Claims.ofJson?_toJson hexp hiat)
  · exact readsFields_error.readBack (ofJson?_error b)
  · exact readsFields_user.readBack (ofJson?_nameless id email role)

/-- Claims with the first and the last number of a word, about somebody whose name is a character
beyond the first plane and a quote. Their fields stand the other way round, and behind them is an
array in an array under a name that nobody knows, with half of a surrogate pair in it. -/
theorem all_readBack_bounds :
    let c : Claims := ⟨"😀\"", maxSigned 64, -(maxSigned 64 : Int) - 1⟩
    let more : Json := .arr [.arr [.str [.unicode 0xD800]], .null]
    FitsWord c.exp ∧ FitsWord c.iat ∧
      Claims.parse? (object [("iat", .int c.iat), ("exp", .int c.exp), ("sub", .ofText c.sub),
        ("more", more)]).print = some c := by
  intro c more
  have hexp : FitsWord c.exp := by decide
  have hiat : FitsWord c.iat := by decide
  refine ⟨hexp, hiat, (all_readBack.2.2.1 c hexp hiat).enlarged _ ?_⟩
  refine @Enlarged.intro _ _ [(Str.ofText "more", more)] _ (fun f hf ↦ ?_) ?_
  · obtain rfl := List.mem_singleton.mp hf
    exact ⟨"more", Str.text?_ofText "more", by decide⟩
  · let own := [("sub", ofText c.sub), ("exp", .int c.exp), ("iat", .int c.iat)]
    exact (List.reverse_perm (own.map fun f ↦ (Str.ofText f.1, f.2))).append_right _

end Records

end Gatehouse
