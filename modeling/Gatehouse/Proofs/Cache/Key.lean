import Gatehouse.Layer.Cache

/-!
# Which requests share a key

A key is the digest of a text in which method, path and query are joined by colons and a known
user is marked by `:user:`. A method holds no colon, but paths, queries and ids may, so the joined
text does not always tell where one part ends and the next begins. `Asked.Shadows` lists the ways
in which two different requests come to one text; **`Asked.key_eq_iff_shadows`** says that there
are no others, and `Asked.stranger_has_key_of_bob` shows the worst of them, a stranger who gets
the key of a user's own response.

Two concatenations agree only if one first part continues the other, and a part that continues
into a colon ends in front of it or holds it. All that is said about colons and marks follows from
these two facts.
-/

namespace Gatehouse

/-! ## Cutting concatenations -/

/-- If two concatenations agree, one first part continues the other. -/
theorem append_eq_append_iff {s t u v : String} :
    s ++ t = u ++ v ↔ (∃ x, u = s ++ x ∧ t = x ++ v) ∨ ∃ x, s = u ++ x ∧ v = x ++ t := by
  constructor
  · intro heq
    have hlist : s.toList ++ t.toList = u.toList ++ v.toList := by
      rw [← String.toList_append, heq, String.toList_append]
    rcases List.append_eq_append_iff.mp hlist with ⟨x, hu, ht⟩ | ⟨x, hs, hv⟩
    · refine .inl ⟨String.ofList x, ?_, ?_⟩
      · rw [← String.toList_inj, String.toList_append, hu, String.toList_ofList]
      · rw [← String.toList_inj, String.toList_append, ht, String.toList_ofList]
    · refine .inr ⟨String.ofList x, ?_, ?_⟩
      · rw [← String.toList_inj, String.toList_append, hs, String.toList_ofList]
      · rw [← String.toList_inj, String.toList_append, hv, String.toList_ofList]
  · rintro (⟨x, rfl, rfl⟩ | ⟨x, rfl, rfl⟩)
    · rw [String.append_assoc]
    · rw [String.append_assoc]

/-- What continues into a colon is empty or begins with one. -/
theorem eq_empty_or_colon {x t t' : String} (heq : ":" ++ t = x ++ (":" ++ t')) :
    (x = "" ∧ t = t') ∨ ∃ y, x = ":" ++ y ∧ t = y ++ (":" ++ t') := by
  simp only [← String.toList_inj, String.toList_append] at heq ⊢
  rcases hx : x.toList with _ | ⟨c, cs⟩
  · rw [hx] at heq
    exact .inl ⟨rfl, by simpa using heq⟩
  · rw [hx] at heq
    exact .inr ⟨String.ofList cs, by simpa [eq_comm] using heq⟩

/-- Two parts in front of colons are equal, or the longer one holds a colon and the rest of the
shorter one holds what is missing. -/
theorem append_colon_eq_iff {s t s' t' : String} :
    s ++ (":" ++ t) = s' ++ (":" ++ t') ↔
      (s = s' ∧ t = t') ∨ (∃ x, s = s' ++ (":" ++ x) ∧ t' = x ++ (":" ++ t)) ∨
        ∃ x, s' = s ++ (":" ++ x) ∧ t = x ++ (":" ++ t') := by
  constructor
  · intro heq
    rcases append_eq_append_iff.mp heq with ⟨x, rfl, ht⟩ | ⟨x, rfl, ht⟩
    · rcases eq_empty_or_colon ht with ⟨rfl, rfl⟩ | ⟨y, rfl, rfl⟩
      · exact .inl ⟨String.append_empty.symm, rfl⟩
      · exact .inr (.inr ⟨y, rfl, rfl⟩)
    · rcases eq_empty_or_colon ht with ⟨rfl, rfl⟩ | ⟨y, rfl, rfl⟩
      · exact .inl ⟨String.append_empty, rfl⟩
      · exact .inr (.inl ⟨y, rfl, rfl⟩)
  · rintro (⟨rfl, rfl⟩ | ⟨x, rfl, rfl⟩ | ⟨x, rfl, rfl⟩)
    · rfl
    · simp only [String.append_assoc]
    · simp only [String.append_assoc]

/-- What continues into a user's mark is empty or holds all of the mark but its last colon: no
shorter piece of the mark is both its beginning and its end, except for the colon. -/
theorem eq_empty_or_mark {x u v : String} (heq : ":user:" ++ u = x ++ (":user:" ++ v)) :
    (x = "" ∧ u = v) ∨ ∃ y, x = ":user" ++ y ∧ ":" ++ u = y ++ (":user:" ++ v) := by
  simp only [← String.toList_inj, String.toList_append] at heq ⊢
  -- one to four characters would put the colon of the second mark on a letter of the first one
  rcases hx : x.toList with _ | ⟨a, _ | ⟨b, _ | ⟨c, _ | ⟨d, _ | ⟨e, y⟩⟩⟩⟩⟩ <;> rw [hx] at heq
  · exact .inl ⟨rfl, by simpa using heq⟩
  · simp at heq
  · simp at heq
  · simp at heq
  · simp at heq
  · refine .inr ⟨String.ofList y, ?_⟩
    rw [String.toList_ofList]
    simpa [eq_comm, and_assoc] using heq

/-! ## Hexadecimal texts -/

theorem hexDigit_inj : ∀ m < 16, ∀ n < 16, hexDigit m = hexDigit n → m = n := by decide

theorem hex_inj {b b' : Bytes} : hex b = hex b' ↔ b = b' := by
  refine ⟨fun heq ↦ ?_, fun heq ↦ by rw [heq]⟩
  have hdigits := String.ofList_injective heq
  clear heq
  induction b generalizing b' with
  | nil =>
    cases b' with
    | nil => rfl
    | cons y ys => simp at hdigits
  | cons x xs ih =>
    cases b' with
    | nil => simp at hdigits
    | cons y ys =>
      simp only [List.flatMap_cons, List.cons_append, List.nil_append, List.cons.injEq] at hdigits
      obtain ⟨hhigh, hlow, hrest⟩ := hdigits
      have hx := x.toNat_lt
      have hy := y.toNat_lt
      have hdiv := hexDigit_inj _ (by omega) _ (by omega) hhigh
      have hmod := hexDigit_inj _ (by omega) _ (by omega) hlow
      have hxy : x = y := UInt8.toNat_inj.mp (by omega)
      rw [hxy, ih hrest]

/-! ## What is asked for -/

namespace Cache

/-- What a key is made of. -/
structure Asked where
  method : Http.Method
  path : String
  query : String
  subject : Option String
  deriving DecidableEq

namespace Asked

/-- What a request asks for; a missing query counts as an empty one. -/
def of (req : Request) : Asked where
  method := req.method
  path := req.target.path
  query := req.target.query.getD ""
  subject := req.user.map User.id

def preimage (a : Asked) : Bytes := Cache.preimage a.method.name a.path a.query a.subject

def key (space : String) (a : Asked) : String :=
  Cache.key space a.method.name a.path a.query a.subject

/-- The mark of a known user behind the query. -/
def mark : Option String → String
  | none => ""
  | some id => ":user:" ++ id

theorem user_append_colon (id : String) : ":user" ++ (":" ++ id) = ":user:" ++ id := by
  rw [← String.append_assoc]
  rfl

theorem preimage_eq (a : Asked) :
    a.preimage =
      utf8 (a.method.name ++ (":" ++ (a.path ++ (":" ++ (a.query ++ mark a.subject))))) := by
  obtain ⟨method, path, query, subject⟩ := a
  cases subject with
  | none => simp only [preimage, Cache.preimage, mark, String.append_assoc, String.append_empty]
  | some id =>
    simp only [preimage, Cache.preimage, mark, ← utf8_append, String.append_assoc]

theorem method_ne_append_colon (method : Http.Method) (s t : String) :
    method.name ≠ s ++ (":" ++ t) := by
  intro hname
  have htoken := method.isToken
  rw [hname, Http.isToken, String.toList_append, String.toList_append] at htoken
  simp [Http.isTokenChar] at htoken

/-! ## Shadows -/

/-- The first request is not the second one and yet has the same text. -/
inductive Shadows : Asked → Asked → Prop
  /-- Nobody is known, and the query ends in the mark of a user. -/
  | stranger (method : Http.Method) (path query id : String) :
      Shadows ⟨method, path, query ++ (":user:" ++ id), none⟩ ⟨method, path, query, some id⟩
  /-- The query takes up the mark of a user whose id ends in the mark of another one. -/
  | namesake (method : Http.Method) (path query : String) {id id' more : String}
      (hmark : ":" ++ id = more ++ (":user:" ++ id')) :
      Shadows ⟨method, path, query ++ (":user" ++ more), some id'⟩ ⟨method, path, query, some id⟩
  /-- The path takes up a piece of what follows the other path. -/
  | detour (method : Http.Method) (path : String) {query query' more : String}
      {subject subject' : Option String}
      (hrest : query ++ mark subject = more ++ (":" ++ (query' ++ mark subject'))) :
      Shadows ⟨method, path ++ (":" ++ more), query', subject'⟩ ⟨method, path, query, subject⟩

theorem Shadows.preimage_eq {a b : Asked} (hshadows : a.Shadows b) :
    a.preimage = b.preimage := by
  rw [Asked.preimage_eq, Asked.preimage_eq, utf8_inj]
  cases hshadows with
  | stranger method path query id => simp only [mark, String.append_empty]
  | @namesake method path query id id' more hmark =>
    simp only [mark, String.append_assoc]
    rw [← hmark, user_append_colon]
  | detour method path hrest => simp only [hrest, String.append_assoc]

/-- A request that shadows another has a colon in its path or `:user` in its query. -/
theorem Shadows.mem_or_infix {a b : Asked} (hshadows : a.Shadows b) :
    ':' ∈ a.path.toList ∨ ":user".toList <:+: a.query.toList := by
  cases hshadows with
  | stranger method path query id =>
    refine .inr ⟨query.toList, (":" ++ id).toList, ?_⟩
    rw [← String.toList_append, ← String.toList_append, String.append_assoc, user_append_colon]
  | @namesake method path query id id' more hmark =>
    refine .inr ⟨query.toList, more.toList, ?_⟩
    rw [← String.toList_append, ← String.toList_append, String.append_assoc]
  | detour method path hrest =>
    left
    simp

/-- What follows the path tells query and user apart, unless the query takes up a mark. -/
theorem rest_eq {method : Http.Method} {path query query' : String}
    {subject subject' : Option String}
    (heq : query ++ mark subject = query' ++ mark subject') :
    let a : Asked := ⟨method, path, query, subject⟩
    let b : Asked := ⟨method, path, query', subject'⟩
    a = b ∨ a.Shadows b ∨ b.Shadows a := by
  intro a b
  rcases subject with _ | id <;> rcases subject' with _ | id'
  · simp only [mark, String.append_empty] at heq
    exact .inl (by simp [a, b, heq])
  · simp only [mark, String.append_empty] at heq
    subst heq
    exact .inr (.inl (.stranger method path query' id'))
  · simp only [mark, String.append_empty] at heq
    subst heq
    exact .inr (.inr (.stranger method path query id))
  · rcases append_eq_append_iff.mp heq with ⟨x, rfl, hmarks⟩ | ⟨x, rfl, hmarks⟩
    · rcases eq_empty_or_mark hmarks with ⟨rfl, rfl⟩ | ⟨y, rfl, hmark⟩
      · exact .inl (by simp [a, b])
      · exact .inr (.inr (.namesake method path query hmark))
    · rcases eq_empty_or_mark hmarks with ⟨rfl, rfl⟩ | ⟨y, rfl, hmark⟩
      · exact .inl (by simp [a, b])
      · exact .inr (.inl (.namesake method path query' hmark))

/-- Two requests have the same text only if they are equal or one shadows the other. -/
theorem preimage_eq_iff {a b : Asked} :
    a.preimage = b.preimage ↔ a = b ∨ a.Shadows b ∨ b.Shadows a := by
  constructor
  · intro heq
    obtain ⟨method, path, query, subject⟩ := a
    obtain ⟨method', path', query', subject'⟩ := b
    -- the first colon of either text is the one behind the method
    rw [preimage_eq, preimage_eq, utf8_inj, append_colon_eq_iff] at heq
    rcases heq with ⟨hname, heq⟩ | ⟨x, hname, -⟩ | ⟨x, hname, -⟩
    · obtain rfl : method = method' := by
        cases method; cases method'; simpa using hname
      rcases append_colon_eq_iff.mp heq with ⟨rfl, hrest⟩ | ⟨x, rfl, hrest⟩ | ⟨x, rfl, hrest⟩
      · exact rest_eq hrest
      · exact .inr (.inl (.detour method path' hrest))
      · exact .inr (.inr (.detour method path hrest))
    · exact absurd hname (method_ne_append_colon _ _ _)
    · exact absurd hname (method_ne_append_colon _ _ _)
  · rintro (rfl | hshadows | hshadows)
    · rfl
    · exact hshadows.preimage_eq
    · exact hshadows.preimage_eq.symm

/-- **Which requests share a key.** In every key space two requests have the same key exactly if
their texts have the same digest. The texts of two different requests are the same exactly if one
shadows the other, which takes a colon in its path or `:user` in its query. These keys are the ones
under which responses are looked up and stored. -/
theorem key_eq_iff_shadows (space : String) (a b : Asked) :
    (a.key space = b.key space ↔ Digest.sha256 a.preimage = Digest.sha256 b.preimage) ∧
      (a.preimage = b.preimage ↔ a = b ∨ a.Shadows b ∨ b.Shadows a) ∧
      (a.Shadows b → ':' ∈ a.path.toList ∨ ":user".toList <:+: a.query.toList) ∧
      ∀ (settings : CacheSettings) (req : Request),
        settings.key req = (Asked.of req).key settings.space := by
  refine ⟨?_, preimage_eq_iff, Shadows.mem_or_infix, fun _ _ ↦ rfl⟩
  rw [key, key, Cache.key, Cache.key, String.append_right_inj, hex_inj]
  rfl

/-- A stranger asks for `/me?x:user:bob` and has the key under which the response to bob, who
asked for `/me?x`, is stored. -/
theorem stranger_has_key_of_bob :
    let stranger : Asked := ⟨.get, "/me", "x:user:bob", none⟩
    let bob : Asked := ⟨.get, "/me", "x", some "bob"⟩
    Http.Target.parse? "/me?x:user:bob" = some ⟨stranger.path, some stranger.query⟩ ∧
      Http.Target.parse? "/me?x" = some ⟨bob.path, some bob.query⟩ ∧
      stranger ≠ bob ∧ stranger.preimage = bob.preimage ∧
      ∀ space, stranger.key space = bob.key space :=
  ⟨rfl, rfl, by decide, rfl, fun _ ↦ rfl⟩

end Asked

end Cache

end Gatehouse
