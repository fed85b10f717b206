import Gatehouse.Settings
import Mathlib.Data.List.DropRight

/-!
# The items of a list

Whatever text a list is read from, its items have a form that nothing in the text can spoil: there
is something in them, but neither a comma nor a blank at either end, **`isItem_of_mem_items`**. A
piece between commas holds no comma, `not_mem_of_mem_splitOn`; trimming takes characters away and
adds none, and what it leaves has a blank at neither end.

Trimming on the left is `List.dropWhile` and trimming on the right is `List.rdropWhile`, both by
definition, so what the library says of these two is said of a trimmed text.
-/

namespace Gatehouse

/-! ## Trimmed texts -/

namespace Text

variable {cs : List Char} {c : Char}

theorem trimChars_sublist : (trimChars cs).Sublist cs :=
  (List.rdropWhile_prefix isBlank (trimLeft cs)).sublist.trans (List.dropWhile_sublist isBlank)

theorem isBlank_of_mem_head?_trimLeft (h : c ∈ (trimLeft cs).head?) : isBlank c = false := by
  have hnot := List.head?_dropWhile_not isBlank cs
  rwa [show (cs.dropWhile isBlank).head? = some c from h] at hnot

theorem isBlank_of_mem_head?_trimChars (h : c ∈ (trimChars cs).head?) : isBlank c = false := by
  obtain ⟨rest, hrest⟩ := List.rdropWhile_prefix isBlank (trimLeft cs)
  have hleft : c ∈ (trimLeft cs).head? := by
    rw [← hrest]
    exact List.mem_head?_append_of_mem_head? h
  exact isBlank_of_mem_head?_trimLeft hleft

theorem isBlank_of_mem_getLast?_trimChars (h : c ∈ (trimChars cs).getLast?) :
    isBlank c = false := by
  obtain ⟨hne, rfl⟩ := List.mem_getLast?_eq_getLast h
  exact eq_false_of_ne_true (List.rdropWhile_last_not isBlank (trimLeft cs) hne)

theorem trimChars_eq_nil_iff : trimChars cs = [] ↔ ∀ c ∈ cs, isBlank c = true := by
  constructor
  · intro h c hc
    -- what is left without its blanks at the end begins with no blank, so it is nothing
    have hall : ∀ d ∈ trimLeft cs, isBlank d = true := List.rdropWhile_eq_nil_iff.mp h
    have hleft : trimLeft cs = [] := by
      rcases hcs : trimLeft cs with _ | ⟨d, rest⟩
      · rfl
      · have hd : isBlank d = true := hall d (hcs ▸ List.mem_cons_self)
        have hhead : d ∈ (trimLeft cs).head? := by
          rw [hcs]
          rfl
        rw [isBlank_of_mem_head?_trimLeft hhead] at hd
        cases hd
    exact List.dropWhile_eq_nil_iff.mp hleft c hc
  · intro h
    have hleft : trimLeft cs = [] := List.dropWhile_eq_nil_iff.mpr h
    rw [trimChars, hleft]
    rfl

theorem trim_isEmpty_iff {s : String} :
    (trim s).isEmpty = true ↔ ∀ c ∈ s.toList, isBlank c = true := by
  rw [← trimChars_eq_nil_iff, trim, String.isEmpty_iff, String.ofList_eq_empty_iff]

/-! ## Pieces -/

theorem not_mem_of_mem_splitOn {sep : Char} {piece : List Char} (h : piece ∈ cs.splitOn sep) :
    sep ∉ piece := by
  induction cs generalizing piece with
  | nil =>
    rw [List.splitOn_nil, List.mem_singleton] at h
    exact h ▸ List.not_mem_nil
  | cons c cs ih =>
    rw [List.splitOn, List.splitOnP_cons_eq_if_modifyHead] at h
    split_ifs at h with hsep
    · rcases List.mem_cons.mp h with rfl | h
      · exact List.not_mem_nil
      · exact ih h
    · rcases hpieces : cs.splitOnP (· == sep) with _ | ⟨first, rest⟩
      · exact absurd hpieces (List.splitOnP_ne_nil _ _)
      · rw [hpieces, List.modifyHead_cons] at h
        have hcs : cs.splitOn sep = first :: rest := hpieces
        rcases List.mem_cons.mp h with rfl | h
        · have hfirst : sep ∉ first := ih (hcs ▸ List.mem_cons_self)
          have hne : sep ≠ c := fun heq ↦ hsep (beq_iff_eq.mpr heq.symm)
          exact fun hmem ↦ (List.mem_cons.mp hmem).elim hne hfirst
        · exact ih (hcs ▸ List.mem_cons_of_mem _ h)

end Text

/-! ## Items -/

namespace Settings

/-- A text that a list may hold. -/
structure IsItem (item : String) : Prop where
  ne_empty : item ≠ ""
  comma : ',' ∉ item.toList
  first : ∀ c ∈ item.toList.head?, Text.isBlank c = false
  last : ∀ c ∈ item.toList.getLast?, Text.isBlank c = false

variable {item s : String}

/-- **Items.** Every item of every list has the form of one. -/
theorem isItem_of_mem_items (h : item ∈ items s) : IsItem item := by
  obtain ⟨hmem, hempty⟩ := List.mem_filter.mp h
  obtain ⟨piece, hpiece, rfl⟩ := List.mem_map.mp hmem
  obtain ⟨cs, hcs, rfl⟩ := List.mem_map.mp hpiece
  have hchars : (Text.trim (String.ofList cs)).toList = Text.trimChars cs := by
    rw [Text.trim, String.toList_ofList, String.toList_ofList]
  refine ⟨?ne_empty, ?comma, ?first, ?last⟩
  case ne_empty =>
    rintro hitem
    rw [hitem] at hempty
    exact absurd hempty (by decide)
  case comma =>
    rw [hchars]
    exact fun hcomma ↦ Text.not_mem_of_mem_splitOn hcs (Text.trimChars_sublist.subset hcomma)
  case first =>
    rw [hchars]
    exact fun c hc ↦ Text.isBlank_of_mem_head?_trimChars hc
  case last =>
    rw [hchars]
    exact fun c hc ↦ Text.isBlank_of_mem_getLast?_trimChars hc

/-- A path begins with a slash. -/
theorem head?_of_mem_paths {e : Environment} {name default : String}
    (h : item ∈ paths e name default) : item.toList.head? = some '/' := by
  obtain ⟨-, hslash⟩ := List.mem_filter.mp h
  obtain ⟨rest, hrest⟩ := List.isPrefixOf_iff_prefix.mp hslash
  exact hrest ▸ rfl

end Settings

end Gatehouse
