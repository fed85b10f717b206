import Gatehouse.Cache.Entry
import Gatehouse.Proofs.Base64
import Gatehouse.Proofs.Json.Record
import Mathlib.Data.List.Basic

/-!
# A stored response is replayed as it was

**`Entry.replay_capture`**: the entry of a response is read back from its octets, and replaying it
gives the status and the body of the response and, name by name, the values it had, less the
cookies and the values that are no texts.

Each of the three codecs is undone where it stands: the body by `decode?_eq_some_iff`, texts and
fields by the reading of records, and the grouping of the header fields by `values_grouped`. That a
replayed field is the captured one uses that its name is a field name already.
-/

namespace Gatehouse

/-! ## Fields, name by name -/

namespace Headers

theorem values_append_list (h h' : Headers) (name : String) :
    values (h ++ h') name = h.values name ++ h'.values name := by
  rw [values, List.filter_append, List.map_append, values, values]

theorem values_filter (h : Headers) (p : String × Bytes → Bool) (name : String) :
    values (h.filter p) name = (h.values name).filter fun v ↦ p (name, v) := by
  induction h with
  | nil => rfl
  | cons f h ih =>
    rw [List.filter_cons, values_cons]
    by_cases hname : f.1 = name
    · subst hname
      rw [if_pos rfl, List.filter_cons]
      split_ifs with hp
      · rw [values_cons, if_pos rfl, ih]
      · rw [ih]
    · rw [if_neg hname]
      split_ifs with hp
      · rw [values_cons, if_neg hname, ih]
      · rw [ih]

theorem values_map_mk (vs : List Bytes) (n name : String) :
    values (vs.map fun v ↦ (n, v)) name = if n = name then vs else [] := by
  induction vs with
  | nil => exact (ite_self []).symm
  | cons v vs ih =>
    rw [List.map_cons, values_cons, ih]
    split_ifs <;> rfl

theorem nodup_names (h : Headers) : h.names.Nodup := by
  induction h with
  | nil => exact List.nodup_nil
  | cons f h ih =>
    rw [names, List.nodup_cons]
    refine ⟨fun hmem ↦ ?_, ih.filter _⟩
    simpa using (List.mem_filter.mp hmem).2

theorem values_of_not_mem_names {h : Headers} {name : String} (hname : name ∉ h.names) :
    h.values name = [] := by
  induction h with
  | nil => rfl
  | cons f h ih =>
    rw [names, List.mem_cons, List.mem_filter, not_or] at hname
    have hne : f.1 ≠ name := fun heq ↦ hname.1 heq.symm
    rw [values_cons, if_neg hne]
    refine ih fun hmem ↦ hname.2 ⟨hmem, ?_⟩
    exact decide_eq_true hname.1

/-- Grouping moves the fields of one name together and changes nothing about a name. -/
theorem values_grouped (h : Headers) (name : String) : h.grouped.values name = h.values name := by
  -- of the names that are listed, only the one that is asked for contributes
  have hlisted : ∀ ns : List String, ns.Nodup →
      values (ns.flatMap fun n ↦ (h.values n).map fun v ↦ (n, v)) name
        = if name ∈ ns then h.values name else [] := by
    intro ns hns
    induction ns with
    | nil => rfl
    | cons n ns ih =>
      rw [List.nodup_cons] at hns
      rw [List.flatMap_cons, values_append_list, values_map_mk, ih hns.2]
      by_cases hn : n = name
      · subst hn
        simp [hns.1]
      · simp [hn, Ne.symm hn]
  rw [grouped, hlisted h.names h.nodup_names]
  split_ifs with hmem
  · rfl
  · exact (values_of_not_mem_names hmem).symm

end Headers

/-! ## Values that are texts -/

namespace Http

theorem isValueOctet_of_isTextOctet {b : UInt8} (h : isTextOctet b = true) :
    isValueOctet b = true := by
  have hlt : b < 0x7F → b ≠ 0x7F := fun hb heq ↦ by
    rw [heq] at hb
    exact absurd hb (by decide)
  simp only [isTextOctet, isValueOctet, Bool.or_eq_true, Bool.and_eq_true, decide_eq_true_eq,
    beq_iff_eq, bne_iff_ne] at h ⊢
  exact h.imp_left fun hb ↦ ⟨hb.1, hlt hb.2⟩

/-- A text value is the ASCII text of its octets. -/
theorem textOf?_eq_some {b : Bytes} {s : String} (h : textOf? b = some s) :
    b.all isTextOctet = true ∧ utf8 s = b := by
  rw [textOf?] at h
  split_ifs at h with hall
  cases h
  refine ⟨hall, ?_⟩
  have hascii : ∀ x ∈ b, x.toNat < 128 := by
    intro x hx
    have htext := List.all_eq_true.mp hall x hx
    simp only [isTextOctet, Bool.or_eq_true, Bool.and_eq_true, decide_eq_true_eq, beq_iff_eq,
      UInt8.lt_iff_toNat_lt] at htext
    rcases htext with ⟨-, hlt⟩ | rfl
    · exact Nat.lt_trans hlt (by decide)
    · decide
  rw [utf8_ofList_of_ascii, List.map_map]
  · refine (List.map_congr_left fun x hx ↦ ?_).trans (List.map_id b)
    simp [toNat_charOfNat_of_ascii (hascii x hx)]
  · intro c hc
    obtain ⟨x, hx, rfl⟩ := List.mem_map.mp hc
    rw [toNat_charOfNat_of_ascii (hascii x hx)]
    exact hascii x hx

end Http

namespace Cache.Entry

/-! ## The record -/

theorem fieldOfJson?_fieldToJson (f : String × String) : fieldOfJson? (fieldToJson f) = some f := by
  simp [fieldToJson, fieldOfJson?]

/-- An entry is read back from its record if its status fits its place. -/
theorem ofJson?_toJson {e : Entry} (hstatus : e.status ≤ maxWord 16) :
    ofJson? e.toJson = some e := by
  have hrecord : e.toJson.record? ["status", "headers", "body"] =
      some [("status", .int e.status), ("headers", .arr (e.headers.map fieldToJson)),
        ("body", .ofText e.body)] := by
    rw [toJson, Json.record?_object]
    rfl
  have hheaders := Json.list?_map fieldOfJson?_fieldToJson e.headers
  simp [ofJson?, hrecord, Json.Record.field?, Json.word16?_int hstatus, hheaders]

theorem decode?_encode {e : Entry} (hstatus : e.status ≤ maxWord 16) :
    decode? e.encode = some e := by
  rw [decode?, encode, Json.parse?_print, Option.bind_some, ofJson?_toJson hstatus]

theorem decode?_encode_capture (status : Http.Status) (headers : Headers) (body : Bytes) :
    decode? (capture status headers body).encode = some (capture status headers body) :=
  decode?_encode (Nat.le_trans status.valid.2 (by decide))

/-! ## Replaying -/

/-- The fields of a response that its replay has. -/
def replayed (headers : Headers) : Headers :=
  (capture .ok headers []).headers.filterMap replayedField?

theorem replay_capture_eq (status : Http.Status) (headers : Headers) (body : Bytes) :
    (capture status headers body).replay = .ok (status, replayed headers, body) := by
  have hstatus : Http.Status.ofNat? status.code = some status := dif_pos status.valid
  have hbody : Base64.standard.decode? (Base64.standard.encode body) = some body :=
    (Base64.Variant.decode?_eq_some_iff Base64.Variant.faithful_standard).mpr rfl
  simp only [replay, capture, hstatus, hbody]
  rfl

theorem restore_encode_capture (status : Http.Status) (headers : Headers) (body : Bytes) :
    restore (capture status headers body).encode = .ok (status, replayed headers, body) := by
  rw [restore, decode?_encode_capture]
  exact replay_capture_eq status headers body

/-- Under a field name, exactly the values that are texts come back. -/
theorem replayedField?_of_fieldName {name : String} (hname : Http.fieldName? name = some name)
    (value : Bytes) :
    ((Http.textOf? value).map fun text ↦ (name, text)).bind replayedField? =
      if value.all Http.isTextOctet then some (name, value) else none := by
  cases htext : Http.textOf? value with
  | none =>
    have hall : ¬ value.all Http.isTextOctet = true := fun hall ↦ by
      rw [Http.textOf?, if_pos hall] at htext
      cases htext
    rw [if_neg hall]
    rfl
  | some text =>
    obtain ⟨hall, hutf8⟩ := Http.textOf?_eq_some htext
    have hvalue : Http.isFieldValue value = true := List.all_eq_true.mpr fun b hb ↦
      Http.isValueOctet_of_isTextOctet (List.all_eq_true.mp hall b hb)
    rw [if_pos hall, Option.map_some, Option.bind_some]
    simp only [replayedField?, hname, hutf8, hvalue, if_true]

/-- A replay has the grouped fields, less the cookies and what is no text. -/
theorem replayed_eq {headers : Headers} (hnames : ∀ f ∈ headers, Http.fieldName? f.1 = some f.1) :
    replayed headers =
      headers.grouped.filter fun f ↦ f.2.all Http.isTextOctet && decide (f.1 ≠ setCookie) := by
  have hgrouped : ∀ f ∈ headers.grouped, Http.fieldName? f.1 = some f.1 := by
    intro f hf
    obtain ⟨name, -, hname⟩ := List.mem_flatMap.mp hf
    obtain ⟨value, hvalue, rfl⟩ := List.mem_map.mp hname
    obtain ⟨g, hg, -⟩ := List.mem_map.mp hvalue
    obtain ⟨hg, heq⟩ := List.mem_filter.mp hg
    exact beq_iff_eq.mp heq ▸ hnames g hg
  have hfield : ∀ f ∈ headers.grouped.filter fun f ↦ f.1 ≠ setCookie,
      ((Http.textOf? f.2).map fun text ↦ (f.1, text)).bind replayedField? =
        Option.guard (fun f ↦ f.2.all Http.isTextOctet) f := fun f hf ↦
    replayedField?_of_fieldName (hgrouped f (List.mem_filter.mp hf).1) f.2
  rw [replayed, capture, List.filterMap_filterMap, List.filterMap_congr hfield,
    List.filterMap_eq_filter, List.filter_filter]

/-- **Replaying undoes capturing.** -/
theorem replay_capture (status : Http.Status) (headers : Headers) (body : Bytes)
    (hnames : ∀ f ∈ headers, Http.fieldName? f.1 = some f.1) :
    decode? (capture status headers body).encode = some (capture status headers body) ∧
    ∃ fields, (capture status headers body).replay = .ok (status, fields, body) ∧
      ∀ name, fields.values name =
        if name = setCookie then [] else (headers.values name).filter (·.all Http.isTextOctet) := by
  refine ⟨decode?_encode_capture status headers body, replayed headers,
    replay_capture_eq status headers body, fun name ↦ ?_⟩
  rw [replayed_eq hnames, Headers.values_filter, Headers.values_grouped]
  split_ifs with hcookie
  · exact List.filter_eq_nil_iff.mpr fun v _ ↦ by simp [hcookie]
  · simp [hcookie]

theorem replay_capture_vary :
    let headers : Headers := [("vary", utf8 "origin"), ("set-cookie", utf8 "sid=1"),
      ("etag", utf8 "\"a\\b\""), ("vary", [0xE9]), ("vary", utf8 "accept")]
    (∀ f ∈ headers, Http.fieldName? f.1 = some f.1) ∧
    ∃ fields, (capture .notFound headers [0, 255]).replay = .ok (.notFound, fields, [0, 255]) ∧
      fields.values "vary" = [utf8 "origin", utf8 "accept"] ∧ fields.values "set-cookie" = [] := by
  intro headers
  have hnames : ∀ f ∈ headers, Http.fieldName? f.1 = some f.1 := by decide +kernel
  obtain ⟨-, fields, hreplay, hvalues⟩ := replay_capture .notFound headers [0, 255] hnames
  refine ⟨hnames, fields, hreplay, ?_, ?_⟩
  · rw [hvalues]
    decide +kernel
  · exact hvalues "set-cookie"

end Cache.Entry

end Gatehouse
