import Gatehouse.Json.Parser
import Gatehouse.Proofs.Json.Spelling

/-!
# Values are read back from their text

**`parse?_print`**: whatever a value is, however deep it is nested and whatever its strings hold,
its compact text is read as that value.

Reading has two stages, and each is undone on its own. The tokens of a value are *legible*: their
spellings can be told apart again, because between two words there is always a mark. And a machine
that waits for a value and is given the tokens of one has the value in its hands afterwards,
whatever is open around it. Both statements follow the recursion of `tokens`, with one case for
arrays and one for objects; what is open around a value and what comes behind it stay arbitrary.
-/

namespace Gatehouse.Json

/-! ## Tokens from octets -/

/-- Tokens whose spellings, one behind the other, are read as these tokens. -/
def Legible (ts : List Token) : Prop :=
  ∀ rest, Delimited rest →
    Place.between.tokens? (ts.flatMap Token.octets ++ rest)
      = (Place.between.tokens? rest).map (ts ++ ·)

theorem delimited_nil : Delimited [] := by simp [Delimited]

theorem delimited_octets {t : Token} (ht : t.isWord = false) (rest : Bytes) :
    Delimited (t.octets ++ rest) := by
  intro b hb
  cases t with
  | null | bool b | int n | real x => cases ht
  | openArray | closeArray | openObject | closeObject | comma | colon | str s =>
    obtain rfl := Option.some.inj hb
    rfl

namespace Legible

theorem nil : Legible [] := fun _ _ ↦ Option.map_id_apply.symm

theorem single (t : Token) : Legible [t] := fun rest hrest ↦ by
  rw [List.flatMap_singleton]
  exact Place.tokens?_octets t fun _ ↦ hrest

/-- Anything may follow a token that is no word. -/
theorem cons {t : Token} (ht : t.isWord = false) {ts : List Token} (hts : Legible ts) :
    Legible (t :: ts) := fun rest hrest ↦ by
  have hword : t.isWord = true → Delimited (ts.flatMap Token.octets ++ rest) := fun hword ↦ by
    rw [ht] at hword
    cases hword
  rw [List.flatMap_cons, List.append_assoc, Place.tokens?_octets t hword, hts rest hrest,
    Option.map_map]
  rfl

/-- A token that is no word ends whatever stands in front of it. -/
theorem append_cons {t : Token} (ht : t.isWord = false) {ts us : List Token} (hts : Legible ts)
    (hus : Legible us) : Legible (ts ++ t :: us) := fun rest hrest ↦ by
  have hend : Delimited ((t :: us).flatMap Token.octets ++ rest) := by
    rw [List.flatMap_cons, List.append_assoc]
    exact delimited_octets ht _
  rw [List.flatMap_append, List.append_assoc, hts _ hend, hus.cons ht rest hrest, Option.map_map]
  congr 1
  funext more
  exact (List.append_assoc ..).symm

end Legible

mutual

theorem legible_tokens : ∀ v : Json, Legible v.tokens
  | .null => .single _
  | .bool _ => .single _
  | .int _ => .single _
  | .real _ => .single _
  | .str _ => .single _
  | .arr items => by
    rw [tokens]
    exact ((legible_itemTokens items).append_cons rfl .nil).cons rfl
  | .obj fields => by
    rw [tokens]
    exact ((legible_fieldTokens fields).append_cons rfl .nil).cons rfl

theorem legible_itemTokens : ∀ items : List Json, Legible (itemTokens items)
  | [] => .nil
  | [v] => by
    rw [itemTokens]
    exact legible_tokens v
  | v :: w :: rest => by
    rw [itemTokens.eq_3 _ _ (List.cons_ne_nil w rest)]
    exact (legible_tokens v).append_cons rfl (legible_itemTokens (w :: rest))

theorem legible_fieldTokens : ∀ fields : List (Str × Json), Legible (fieldTokens fields)
  | [] => .nil
  | [(k, v)] => by
    rw [fieldTokens]
    exact ((legible_tokens v).cons rfl).cons rfl
  | (k, v) :: f :: rest => by
    rw [fieldTokens.eq_3 _ _ _ (List.cons_ne_nil f rest)]
    exact (((legible_tokens v).append_cons rfl (legible_fieldTokens (f :: rest))).cons rfl).cons rfl

end

theorem tokens?_print (v : Json) : tokens? v.print = some v.tokens := by
  have hread := legible_tokens v [] delimited_nil
  rw [List.append_nil] at hread
  rw [tokens?, print, hread]
  simp [Place.tokens?, Place.finish?]

/-! ## Values from tokens -/

namespace Awaiting

/-- A value does not begin with a closing bracket. -/
theorem readAll?_firstItem (v : Json) (outer : List Open) (ts : List Token) :
    (firstItem outer).readAll? (v.tokens ++ ts)
      = (value (.array [] :: outer)).readAll? (v.tokens ++ ts) := by
  cases v <;> rfl

mutual

/-- What waits for a value and is given the tokens of one has the value. -/
theorem readAll?_tokens : ∀ (v : Json) (outer : List Open) (ts : List Token),
    (value outer).readAll? (v.tokens ++ ts) = (separator outer v).readAll? ts
  | .null, _, _ => rfl
  | .bool _, _, _ => rfl
  | .int _, _, _ => rfl
  | .real _, _, _ => rfl
  | .str _, _, _ => rfl
  | .arr [], _, _ => rfl
  | .arr (v :: rest), outer, ts => by
    have hopen : (value outer).readAll? ((Json.arr (v :: rest)).tokens ++ ts)
        = (firstItem outer).readAll? (itemTokens (v :: rest) ++ .closeArray :: ts) := by
      rw [tokens, List.append_assoc]
      rfl
    have hfirst : (firstItem outer).readAll? (itemTokens (v :: rest) ++ .closeArray :: ts)
        = (value (.array [] :: outer)).readAll? (itemTokens (v :: rest) ++ .closeArray :: ts) := by
      cases rest with
      | nil => exact readAll?_firstItem v outer _
      | cons w rest =>
        rw [itemTokens.eq_3 _ _ (List.cons_ne_nil w rest), List.append_assoc]
        exact readAll?_firstItem v outer _
    rw [hopen, hfirst, readAll?_itemTokens (v :: rest) (List.cons_ne_nil v rest) [] outer ts]
    rfl
  | .obj [], _, _ => rfl
  | .obj ((k, v) :: rest), outer, ts => by
    have hopen : (value outer).readAll? ((Json.obj ((k, v) :: rest)).tokens ++ ts)
        = (key outer []).readAll? (fieldTokens ((k, v) :: rest) ++ .closeObject :: ts) := by
      rw [tokens, List.append_assoc]
      cases rest with
      | nil => rw [fieldTokens]; rfl
      | cons f rest => rw [fieldTokens.eq_3 _ _ _ (List.cons_ne_nil f rest)]; rfl
    rw [hopen, readAll?_fieldTokens ((k, v) :: rest) (List.cons_ne_nil (k, v) rest) [] outer ts]
    rfl

theorem readAll?_itemTokens : ∀ (items : List Json), items ≠ [] → ∀ (done : List Json)
    (outer : List Open) (ts : List Token),
    (value (.array done :: outer)).readAll? (itemTokens items ++ .closeArray :: ts)
      = (separator outer (.arr (done.reverse ++ items))).readAll? ts
  | [], hne, _, _, _ => absurd rfl hne
  | [v], _, done, outer, ts => by
    rw [itemTokens, readAll?_tokens v (.array done :: outer), ← List.reverse_cons]
    rfl
  | v :: w :: rest, _, done, outer, ts => by
    have hnext : (separator (.array done :: outer) v).readAll?
          (.comma :: (itemTokens (w :: rest) ++ .closeArray :: ts))
        = (value (.array (v :: done) :: outer)).readAll?
          (itemTokens (w :: rest) ++ .closeArray :: ts) := rfl
    rw [itemTokens.eq_3 _ _ (List.cons_ne_nil w rest), List.append_assoc, List.cons_append,
      readAll?_tokens v (.array done :: outer), hnext,
      readAll?_itemTokens (w :: rest) (List.cons_ne_nil w rest) (v :: done) outer ts,
      List.reverse_cons, List.append_assoc]
    rfl

theorem readAll?_fieldTokens : ∀ (fields : List (Str × Json)), fields ≠ [] →
    ∀ (done : List (Str × Json)) (outer : List Open) (ts : List Token),
    (key outer done).readAll? (fieldTokens fields ++ .closeObject :: ts)
      = (separator outer (.obj (done.reverse ++ fields))).readAll? ts
  | [], hne, _, _, _ => absurd rfl hne
  | [(k, v)], _, done, outer, ts => by
    have hkey : (key outer done).readAll? (fieldTokens [(k, v)] ++ .closeObject :: ts)
        = (value (.object done k :: outer)).readAll? (v.tokens ++ .closeObject :: ts) := by
      rw [fieldTokens]
      rfl
    rw [hkey, readAll?_tokens v (.object done k :: outer), ← List.reverse_cons]
    rfl
  | (k, v) :: f :: rest, _, done, outer, ts => by
    have hkey : (key outer done).readAll? (fieldTokens ((k, v) :: f :: rest) ++ .closeObject :: ts)
        = (value (.object done k :: outer)).readAll?
          (v.tokens ++ .comma :: (fieldTokens (f :: rest) ++ .closeObject :: ts)) := by
      rw [fieldTokens.eq_3 _ _ _ (List.cons_ne_nil f rest), List.append_assoc]
      rfl
    have hnext : (separator (.object done k :: outer) v).readAll?
          (.comma :: (fieldTokens (f :: rest) ++ .closeObject :: ts))
        = (key outer ((k, v) :: done)).readAll?
          (fieldTokens (f :: rest) ++ .closeObject :: ts) := rfl
    rw [hkey, readAll?_tokens v (.object done k :: outer), hnext,
      readAll?_fieldTokens (f :: rest) (List.cons_ne_nil f rest) ((k, v) :: done) outer ts,
      List.reverse_cons, List.append_assoc]
    rfl

end

end Awaiting

/-- **A value is read back from its text.** -/
theorem parse?_print (v : Json) : parse? v.print = some v := by
  have hread := Awaiting.readAll?_tokens v [] []
  rw [List.append_nil] at hread
  rw [parse?, tokens?_print, Option.bind_some, ofTokens?, hread]
  rfl

end Gatehouse.Json
