import Gatehouse.Bytes
import Gatehouse.Text

/-!
# Header fields

The fields of a message are a list of names with values. A name is a token in small letters; a
value is a string of octets without control characters, and only some values are texts. Names may
repeat: `append` adds a further value, `insert` leaves exactly one.

Where fields are listed name by name, as in a stored response, a name stands where it first
appeared, and the values of one name keep their order.

The names of a message are kept in a table of limited size, and a program that gives a message more
of them than fit comes to its end.
-/

namespace Gatehouse.Http

/-! ## Names and values -/

def isTokenChar (c : Char) : Bool :=
  ('0' ≤ c && c ≤ '9') || ('a' ≤ c && c ≤ 'z') || ('A' ≤ c && c ≤ 'Z') ||
    "!#$%&'*+-.^_\x60|~".toList.contains c

/-- A token: at least one character, all of them allowed in tokens. -/
def isToken (s : String) : Bool := !s.isEmpty && s.toList.all isTokenChar

/-- The field name that a text gives. -/
def fieldName? (s : String) : Option String :=
  if isToken s && s.utf8ByteSize < 65536 then some (Text.lower s) else none

/-- An octet that a field value may hold: tab, and everything but control characters. -/
def isValueOctet (b : UInt8) : Bool := (0x20 ≤ b && b != 0x7F) || b == 0x09

def isFieldValue (b : Bytes) : Bool := b.all isValueOctet

/-- An octet of a value that is a text: tab, space and what can be seen of ASCII. -/
def isTextOctet (b : UInt8) : Bool := (0x20 ≤ b && b < 0x7F) || b == 0x09

/-- The text that a field value is, if it is one. -/
def textOf? (b : Bytes) : Option String :=
  if b.all isTextOctet then some (String.ofList (b.map fun x ↦ Char.ofNat x.toNat)) else none

end Http

/-- The fields of a message. -/
abbrev Headers := List (String × Bytes)

namespace Headers

/-- The values of a name, in order. -/
def values (h : Headers) (name : String) : List Bytes :=
  (h.filter fun f ↦ f.1 == name).map Prod.snd

def contains (h : Headers) (name : String) : Bool := h.any fun f ↦ f.1 == name

def first? (h : Headers) (name : String) : Option Bytes := (h.values name).head?

/-- The first value of a name, if it is a text. -/
def text? (h : Headers) (name : String) : Option String := (h.first? name).bind Http.textOf?

def append (h : Headers) (name : String) (value : Bytes) : Headers := h ++ [(name, value)]

/-- Give a name a single value, at the place of the first one it had. -/
def insert : Headers → String → Bytes → Headers
  | [], name, value => [(name, value)]
  | f :: rest, name, value =>
    if f.1 = name then (name, value) :: rest.filter fun g ↦ g.1 ≠ name
    else f :: insert rest name value

def insertText (h : Headers) (name value : String) : Headers := h.insert name (utf8 value)

def insertMissing (h : Headers) (name : String) (value : Bytes) : Headers :=
  if h.contains name then h else h.insert name value

/-- The names in the order in which they first appear. -/
def names : Headers → List String
  | [] => []
  | f :: rest => f.1 :: (names rest).filter fun n ↦ n ≠ f.1

/-- The same fields, those of one name together. -/
def grouped (h : Headers) : Headers :=
  h.names.flatMap fun name ↦ (h.values name).map fun value ↦ (name, value)

/-! ## How many names there can be -/

/-- The most names that the fields of one message can have. -/
def maxNames : Nat := 24576

/-- Whether a message takes the fields, one after the other. While there are as many names as there
can be it takes no further field, not even under a name that it has. -/
def fits (h : Headers) : Bool :=
  -- the names are counted only where there are that many fields
  h.length ≤ maxNames || (names h.dropLast).length < maxNames

theorem length_names_le (h : Headers) : h.names.length ≤ h.length := by
  induction h with
  | nil => exact Nat.le_refl 0
  | cons f h ih => exact Nat.succ_le_succ (Nat.le_trans (List.length_filter_le _ _) ih)

/-- Counting the names only where there are many fields changes nothing. -/
theorem fits_iff (h : Headers) : h.fits = true ↔ (names h.dropLast).length < maxNames := by
  rw [fits, Bool.or_eq_true, decide_eq_true_iff, decide_eq_true_iff, or_iff_right_iff_imp]
  intro hlength
  have hpos : 0 < maxNames := by decide
  have hnames := length_names_le h.dropLast
  rw [List.length_dropLast] at hnames
  omega

theorem names_of_nodup {h : Headers} (hnodup : (h.map Prod.fst).Nodup) :
    h.names = h.map Prod.fst := by
  induction h with
  | nil => rfl
  | cons f h ih =>
    rw [List.map_cons, List.nodup_cons] at hnodup
    rw [names, ih hnodup.2, List.filter_eq_self.mpr, List.map_cons]
    exact fun n hn ↦ decide_eq_true fun heq ↦ hnodup.1 (heq ▸ hn)

/-- More different names than there can be do not fit. -/
theorem not_fits_of_nodup {h : Headers} (hnodup : (h.map Prod.fst).Nodup)
    (hlength : maxNames < h.length) : h.fits = false := by
  rw [← Bool.not_eq_true, fits_iff, names_of_nodup, List.length_map, List.length_dropLast]
  · omega
  · rw [List.map_dropLast]
    exact hnodup.sublist (List.dropLast_sublist _)

/-! ## What insertion does to the values -/

theorem values_cons (f : String × Bytes) (h : Headers) (name : String) :
    values (f :: h) name = if f.1 = name then f.2 :: h.values name else h.values name := by
  by_cases e : f.1 = name <;> simp [values, e]

theorem values_filter_ne (h : Headers) {name other : String} (ne : other ≠ name) :
    values (h.filter fun g ↦ g.1 ≠ name) other = h.values other := by
  induction h with
  | nil => rfl
  | cons f rest ih =>
    rw [List.filter_cons, values_cons]
    by_cases e : f.1 = name
    · have e' : ¬ f.1 = other := fun h ↦ ne (h.symm.trans e)
      rw [if_neg (by simp [e]), if_neg e', ih]
    · rw [if_pos (by simp [e]), values_cons, ih]

theorem values_filter_self (h : Headers) (name : String) :
    values (h.filter fun g ↦ g.1 ≠ name) name = [] := by
  induction h with
  | nil => rfl
  | cons f rest ih =>
    rw [List.filter_cons]
    by_cases e : f.1 = name
    · rw [if_neg (by simp [e]), ih]
    · rw [if_pos (by simp [e]), values_cons, if_neg e, ih]

theorem values_insert (h : Headers) (name other : String) (value : Bytes) :
    (h.insert name value).values other = if other = name then [value] else h.values other := by
  induction h with
  | nil =>
    rw [insert, values_cons]
    by_cases e : name = other
    · simp [e, values]
    · simp [e, Ne.symm e, values]
  | cons f rest ih =>
    rw [insert]
    by_cases e : f.1 = name
    · rw [if_pos e, values_cons, values_cons]
      by_cases o : other = name
      · subst o
        rw [values_filter_self]
        simp
      · rw [values_filter_ne rest o]
        simp [o, e, Ne.symm o]
    · rw [if_neg e, values_cons, values_cons, ih]
      by_cases o : other = name
      · have e' : ¬ f.1 = other := fun h ↦ e (h.trans o)
        simp [o, e]
      · simp [o]

theorem values_append (h : Headers) (name other : String) (value : Bytes) :
    (h.append name value).values other =
      h.values other ++ if other = name then [value] else [] := by
  by_cases e : name = other
  · simp [append, values, e]
  · simp [append, values, e, Ne.symm e]

end Headers

end Gatehouse
