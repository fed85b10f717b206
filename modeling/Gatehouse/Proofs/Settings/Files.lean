import Gatehouse.Settings.Environment
import Mathlib.Data.List.DropRight

/-!
# Files that can be read

A file ends the program if it gives a variable a value with the character zero in it. The characters
of a value come from the file, from the values of other variables, or stand for an escape, which is
never zero. So nothing ends the program if there is no zero in the file and in the values that the
process has, **`Environment.withFile?_ne_none`**: the environments in which variables are read grow
line by line, and none of their values ever has a zero in it, `Environment.Clean`.
-/

namespace Gatehouse

/-! ## Lines -/

theorem Quoting.mem_of_mem_linesFrom {q : Quoting} {read cs : List Char} {text : String} {c : Char}
    (h : text ∈ linesFrom q read cs) (hc : c ∈ text.toList) : c ∈ read ∨ c ∈ cs := by
  induction cs generalizing q read with
  | nil =>
    rw [linesFrom] at h
    split at h
    · rw [List.mem_singleton.mp h, String.toList_ofList, List.mem_reverse] at hc
      exact .inl hc
    · cases h
  | cons d rest ih =>
    rw [linesFrom] at h
    split at h
    · rcases List.mem_cons.mp h with rfl | h
      · rw [String.toList_ofList, List.mem_reverse] at hc
        exact .inl hc
      · exact .inr (List.mem_cons_of_mem d ((ih h).resolve_left List.not_mem_nil))
    · rcases ih h with hread | hrest
      · split at hread
        · exact .inl hread
        · rcases List.mem_cons.mp hread with rfl | hread
          · exact .inr List.mem_cons_self
          · exact .inl hread
      · exact .inr (List.mem_cons_of_mem d hrest)

theorem Quoting.mem_of_mem_lines {cs : List Char} {text : String} {c : Char}
    (h : text ∈ lines cs) (hc : c ∈ text.toList) : c ∈ cs :=
  (mem_of_mem_linesFrom h hc).resolve_left List.not_mem_nil

namespace Environment

/-- No value has a zero in it. -/
def Clean (e : Environment) : Prop := ∀ d ∈ e, zero ∉ d.2.toList

variable {e : Environment} {cs : List Char}

theorem Clean.substituted (he : e.Clean) (read : List Char) : zero ∉ e.substituted read := by
  rw [Environment.substituted, value?]
  cases hd : e.find? fun d ↦ d.1 == String.ofList read.reverse with
  | none => simp
  | some d => exact he d (List.mem_of_find?_eq_some hd)

/-! ## Values -/

/-- A character that is not zero adds none to a value. -/
theorem Clean.next (he : e.Clean) {c : Char} (hc : c ≠ zero) {p next : Place}
    {gained : List Char} (h : p.next? e c = some (next, gained)) : zero ∉ gained := by
  have hone : zero ∉ [c] := by simpa using hc.symm
  have hline : zero ∉ ['\n'] := by decide
  have henter : ∀ quoted, zero ∉ (Place.enter quoted c).2 := by
    intro quoted
    rw [Place.enter]
    split_ifs <;> first | exact List.not_mem_nil | exact hone
  cases p with
  | plain =>
    have hgained : (Place.enter false c).2 = gained := congrArg Prod.snd (Option.some.inj h)
    exact hgained ▸ henter false
  | double =>
    have hgained : (Place.enter true c).2 = gained := congrArg Prod.snd (Option.some.inj h)
    exact hgained ▸ henter true
  | ended | comment =>
    simp only [Place.next?] at h
    grind
  | single | escaped quoted | name quoted read | braced quoted read =>
    have hread := he.substituted
    simp only [Place.next?] at h
    grind

/-- What the end of a value adds is the value of a variable at most. -/
theorem Clean.read_nil (he : e.Clean) {p : Place} {value : List Char}
    (h : p.read? e [] = some value) : zero ∉ value := by
  cases p with
  | plain | ended | comment =>
    cases h
    exact List.not_mem_nil
  | single | double | braced quoted read => cases h
  | escaped quoted =>
    cases quoted with
    | true => cases h
    | false =>
      cases h
      exact List.not_mem_nil
  | name quoted read =>
    cases quoted with
    | true => cases h
    | false =>
      cases h
      exact he.substituted read

theorem Clean.read (he : e.Clean) {p : Place} {value : List Char} (hcs : zero ∉ cs)
    (h : p.read? e cs = some value) : zero ∉ value := by
  induction cs generalizing p value with
  | nil => exact he.read_nil h
  | cons c rest ih =>
    rw [List.mem_cons, not_or] at hcs
    rw [Place.read?] at h
    split at h
    · cases h
    · next next gained hnext =>
      obtain ⟨more, hmore, rfl⟩ := Option.map_eq_some_iff.mp h
      rw [List.mem_append, not_or]
      exact ⟨he.next (Ne.symm hcs.1) hnext, ih hcs.2 hmore⟩

/-! ## Lines of a file -/

theorem mem_of_name?_eq_some {name rest : List Char} (h : name? cs = some (name, rest)) {c : Char}
    (hc : c ∈ rest) : c ∈ cs := by
  cases cs with
  | nil => cases h
  | cons d cs =>
    rw [name?] at h
    split_ifs at h
    cases h
    exact ((List.dropWhile_sublist _).trans (List.dropWhile_sublist _)).mem hc

theorem Clean.definition (he : e.Clean) {chars : List Char} {name value : String}
    (hcs : zero ∉ cs) (h : Environment.definition e chars cs = .definition name value) :
    zero ∉ value.toList := by
  rw [Environment.definition.eq_def] at h
  split at h
  · next rest =>
    have hrest : zero ∉ Text.trimLeft rest := fun hmem ↦
      hcs (List.mem_cons_of_mem _ ((List.dropWhile_sublist _).mem hmem))
    split at h
    · cases h
      exact List.not_mem_nil
    · cases h
      exact List.not_mem_nil
    · split at h
      · cases h
      · next hread =>
        cases h
        rw [String.toList_ofList]
        exact he.read hrest hread
  · cases h

theorem Clean.line (he : e.Clean) {text name value : String} (htext : zero ∉ text.toList)
    (h : e.line text = .definition name value) : zero ∉ value.toList := by
  have htrim : zero ∉ Text.trimChars text.toList := fun hmem ↦ htext
    (((List.rdropWhile_prefix _ _).sublist.trans (List.dropWhile_sublist _)).mem hmem)
  rw [Environment.line] at h
  split at h
  · cases h
  · cases h
  · split at h
    · cases h
    · next hname => exact he.definition (fun hmem ↦ htrim (mem_of_name?_eq_some hname hmem)) h
    · next hname =>
      split_ifs at h
      split at h
      · cases h
      · next hname' =>
        exact he.definition (fun hmem ↦
          htrim (mem_of_name?_eq_some hname (mem_of_name?_eq_some hname' hmem))) h

/-- Lines without a zero do not end the program. -/
theorem Clean.withLines?_ne_none (he : e.Clean) {lines : List String}
    (hlines : ∀ text ∈ lines, zero ∉ text.toList) : e.withLines? lines ≠ none := by
  induction lines generalizing e with
  | nil => exact Option.some_ne_none e
  | cons text rest ih =>
    rw [List.forall_mem_cons] at hlines
    rw [withLines?]
    split
    · exact ih he hlines.2
    · exact Option.some_ne_none e
    · next name value hline =>
      have hvalue := he.line hlines.1 hline
      rw [if_neg (by simp [hvalue])]
      refine ih (fun d hd ↦ ?_) hlines.2
      rcases List.mem_append.mp hd with hd | hd
      · exact he d hd
      · rw [List.mem_singleton.mp hd]
        exact hvalue

/-- **Files that can be read.** -/
theorem withFile?_ne_none (he : e.Clean) {file : String} (hfile : zero ∉ file.toList) :
    e.withFile? file ≠ none := by
  refine he.withLines?_ne_none fun text htext hmem ↦ hfile ?_
  have hmark := Quoting.mem_of_mem_lines htext hmem
  rw [withoutMark] at hmark
  split at hmark
  · exact List.mem_of_mem_tail hmark
  · exact hmark

end Environment

end Gatehouse
