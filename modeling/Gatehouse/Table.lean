/-!
# Finite maps

A table holds at most one value for every key. It is a list of pairs in which no key occurs
twice, and since the list carries that fact, counting pairs is counting keys: the number of live
entries of a store and the number of entries that a purge removes are lengths of lists.

The view of a table is `find?`; every operation is described by what it does to that view.
-/

namespace Gatehouse

/-- A finite map from keys to values. -/
structure Table (κ α : Type) where
  /-- The keys with their values, in no particular order. -/
  pairs : List (κ × α)
  /-- No key occurs twice. -/
  nodup : (pairs.map Prod.fst).Nodup

namespace Table

variable {κ α : Type}

def empty : Table κ α := ⟨[], List.nodup_nil⟩

instance : Inhabited (Table κ α) := ⟨empty⟩

/-- The pairs that satisfy a test. -/
def filter (t : Table κ α) (p : κ → α → Bool) : Table κ α where
  pairs := t.pairs.filter fun e ↦ p e.1 e.2
  nodup := t.nodup.sublist (List.filter_sublist.map _)

def size (t : Table κ α) : Nat := t.pairs.length

/-- The number of keys whose pair satisfies a test. -/
def count (t : Table κ α) (p : κ → α → Bool) : Nat := (t.filter p).size

variable [DecidableEq κ]

/-- The value of the first pair with the given key. -/
def lookup (k : κ) : List (κ × α) → Option α
  | [] => none
  | e :: rest => if e.1 = k then some e.2 else lookup k rest

def find? (t : Table κ α) (k : κ) : Option α := lookup k t.pairs

def erase (t : Table κ α) (k : κ) : Table κ α := t.filter fun k' _ ↦ k' ≠ k

/-- Give a key a value, in place of the one it may have. -/
def insert (t : Table κ α) (k : κ) (v : α) : Table κ α where
  pairs := (k, v) :: (t.erase k).pairs
  nodup := by
    rw [List.map_cons, List.nodup_cons]
    exact ⟨by simp [erase, filter], (t.erase k).nodup⟩

/-- The table of a list of pairs; of equal keys the last one counts. -/
def ofList (pairs : List (κ × α)) : Table κ α :=
  pairs.foldl (fun t e ↦ t.insert e.1 e.2) empty

/-! ## The view -/

theorem lookup_eq_some_iff {k : κ} {v : α} {pairs : List (κ × α)}
    (h : (pairs.map Prod.fst).Nodup) : lookup k pairs = some v ↔ (k, v) ∈ pairs := by
  induction pairs with
  | nil => simp [lookup]
  | cons e rest ih =>
    rw [List.map_cons, List.nodup_cons] at h
    rw [lookup, List.mem_cons]
    by_cases he : e.1 = k
    · have absent : (k, v) ∉ rest := fun hm ↦ h.1 (he ▸ List.mem_map_of_mem hm)
      simp only [he, if_true, Option.some.injEq, absent, or_false]
      constructor
      · rintro rfl; exact Prod.ext he.symm rfl
      · rintro rfl; rfl
    · have other : ¬ (k, v) = e := fun hk ↦ he (hk ▸ rfl)
      simp [he, other, ih h.2]

theorem find?_eq_some_iff {t : Table κ α} {k : κ} {v : α} :
    t.find? k = some v ↔ (k, v) ∈ t.pairs :=
  lookup_eq_some_iff t.nodup

@[simp] theorem find?_empty (k : κ) : (empty : Table κ α).find? k = none := rfl

theorem find?_filter (t : Table κ α) (p : κ → α → Bool) (k : κ) :
    (t.filter p).find? k = (t.find? k).filter (p k) := by
  apply Option.ext
  intro v
  simp only [Option.filter_eq_some_iff, find?_eq_some_iff, filter, List.mem_filter]

theorem find?_erase (t : Table κ α) (k k' : κ) :
    (t.erase k).find? k' = if k' = k then none else t.find? k' := by
  rw [erase, find?_filter]
  by_cases h : k' = k <;> cases t.find? k' <;> simp [h]

theorem find?_insert (t : Table κ α) (k k' : κ) (v : α) :
    (t.insert k v).find? k' = if k' = k then some v else t.find? k' := by
  have step : (t.insert k v).find? k' = if k = k' then some v else (t.erase k).find? k' := rfl
  rw [step, find?_erase]
  by_cases h : k' = k
  · simp [h]
  · simp [h, Ne.symm h]

end Table

end Gatehouse
