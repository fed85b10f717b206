import Gatehouse.Proofs.Settings.Files
import Gatehouse.Proofs.Settings.Items
import Gatehouse.Proofs.Text.Decimal
import Gatehouse.Site

/-!
# Which environments are accepted

What an environment has to say, and in which form, is a list of `demands` in a fixed order: first
that every variable with a form of its own can be read, then that the values that were read are of
use. There are settings exactly if no demand is broken, and otherwise the first one that is broken
is reported, **`vetted`**. The settings that there are say what the variables say, and a site always
starts with them.

A variable whose value is no text counts as not set, so it breaks no demand on its form. And there
is no environment at all if the file with the definitions ends the program.

## Two kinds of checks that agree

The settings are checked once when they are read, and once more when the limiter is made that they
ask for. The second check refuses nothing that has passed the first: a limiter is made only if the
limit is not zero, and then the window, which is a number of whole seconds, is not zero either.

## How the order of the reports is proved

`Meets e ds P x` says that a computation `x` fails exactly with what is reported of the first demand
of `ds` that `e` breaks, and that otherwise its result has the property `P`. One computation after
another meets the demands of the first and then those of the second, `Meets.bind`. Reading and
checking are a row of computations each of which meets one demand.
-/

namespace Gatehouse

namespace ExpiryPolicy

theorem parse_eq_ok_iff {s : String} {p : ExpiryPolicy} :
    parse s = .ok p ↔ Text.lower (Text.trim s) = p.name := by
  rw [parse]
  split_ifs with hrolling hfixed
  · rw [hrolling]
    cases p <;> decide
  · rw [hfixed]
    cases p <;> decide
  · refine iff_of_false nofun fun h ↦ ?_
    cases p with
    | rolling => exact hrolling h
    | fixed => exact hfixed h

/-- A text that names no policy is reported as it was compared with their names. -/
theorem parse_eq_error_iff {s : String} {unknown : Unknown} :
    parse s = .error unknown ↔
      (∀ p : ExpiryPolicy, Text.lower (Text.trim s) ≠ p.name) ∧
        unknown = ⟨Text.lower (Text.trim s)⟩ := by
  have hall : (∀ p : ExpiryPolicy, Text.lower (Text.trim s) ≠ p.name) ↔
      Text.lower (Text.trim s) ≠ rolling.name ∧
        Text.lower (Text.trim s) ≠ fixed.name := by
    refine ⟨fun h ↦ ⟨h _, h _⟩, fun h p ↦ ?_⟩
    cases p with
    | rolling => exact h.1
    | fixed => exact h.2
  rw [hall, parse]
  split_ifs with hrolling hfixed
  · exact iff_of_false nofun fun h ↦ h.1.1 hrolling
  · exact iff_of_false nofun fun h ↦ h.1.2 hfixed
  · rw [Except.error.injEq, eq_comm, and_iff_right ⟨hrolling, hfixed⟩]

end ExpiryPolicy

namespace Settings

/-! ## Demands -/

/-- A demand on an environment. -/
inductive Demand where
  /-- The variable is set. -/
  | set (name : String)
  /-- The variable is a number that fits a word, if it is set. -/
  | numeral (name : String) (bits : Nat)
  /-- The variable names an expiry policy, if it is set. -/
  | policy (name : String)
  /-- The variable is more than blanks, if it is set. -/
  | visible (name : String)
  /-- The variable is not the empty text. -/
  | nonempty (name : String)
  /-- The variable is not zero. -/
  | positive (name : String)
  /-- The variable is not zero, unless another one is. -/
  | positiveUnless (name other : String)

/-- The demands of reading, in the order in which variables are read. -/
def readings : List Demand :=
  [.numeral "PORT" 16, .numeral "MAX_REQUEST_BODY_SIZE" 64, .set "JWT_SECRET",
    .numeral "RATE_LIMIT_REQUESTS" 32, .numeral "RATE_LIMIT_WINDOW_SECS" 64,
    .policy "RATE_LIMIT_EXPIRY", .numeral "CACHE_TTL_SECS" 64,
    .numeral "CACHE_MAX_ENTRY_BYTES" 64, .numeral "METRICS_PORT" 16]

/-- The demands of checking, in the order in which values are checked. -/
def checks : List Demand :=
  [.visible "JWT_SECRET", .nonempty "AUTH_COOKIE_NAME",
    .positiveUnless "RATE_LIMIT_WINDOW_SECS" "RATE_LIMIT_REQUESTS", .positive "CACHE_TTL_SECS",
    .nonempty "CACHE_NAMESPACE", .positive "MAX_REQUEST_BODY_SIZE"]

/-- All demands, in the order in which they are made. -/
def demands : List Demand := readings ++ checks

/-- Whether a variable is set to a numeral of zero. -/
def IsZero (e : Environment) (name : String) : Prop :=
  ∃ s, e.value? name = some s ∧ Text.Spells s 0

namespace Demand

/-- Whether an environment breaks a demand. -/
def Broken (e : Environment) : Demand → Prop
  | set name => e.value? name = none
  | numeral name bits =>
    ∃ s, e.value? name = some s ∧ ∀ n, Text.Spells s n → ¬ n ≤ maxWord bits
  | policy name =>
    ∃ s, e.value? name = some s ∧ ∀ p : ExpiryPolicy, Text.lower (Text.trim s) ≠ p.name
  | visible name => ∃ s, e.value? name = some s ∧ ∀ c ∈ s.toList, Text.isBlank c = true
  | nonempty name => e.value? name = some ""
  | positive name => IsZero e name
  | positiveUnless name other => IsZero e name ∧ ¬ IsZero e other

/-- Whether an error is what is reported of a demand. -/
def Reports (e : Environment) (err : SettingsError) : Demand → Prop
  | set name => err = .missing name
  | numeral name bits => ∃ s fault, e.value? name = some s ∧
    Text.readWord bits s = .error fault ∧ err = .invalid name (.numeral fault)
  | policy name => ∃ s, e.value? name = some s ∧
    err = .invalid name (.policy ⟨Text.lower (Text.trim s)⟩)
  | visible name => err = .empty name
  | nonempty name => err = .empty name
  | positive name => err = .zero name
  | positiveUnless name _ => err = .zero name

end Demand

variable {e : Environment} {d : Demand} {ds ds' : List Demand} {err : SettingsError}

theorem Demand.Broken.exists_reports (h : d.Broken e) : ∃ err, d.Reports e err := by
  cases d with
  | set name => exact ⟨_, rfl⟩
  | numeral name bits =>
    obtain ⟨s, hs, hnone⟩ := h
    obtain ⟨fault, hread⟩ := Text.exists_readWord_eq_error_iff.mpr hnone
    exact ⟨_, s, fault, hs, hread, rfl⟩
  | policy name =>
    obtain ⟨s, hs, -⟩ := h
    exact ⟨_, s, hs, rfl⟩
  | visible name => exact ⟨_, rfl⟩
  | nonempty name => exact ⟨_, rfl⟩
  | positive name => exact ⟨_, rfl⟩
  | positiveUnless name other => exact ⟨_, rfl⟩

/-! ## The first broken demand -/

/-- Whether an error is what is reported of the first of some demands that is broken. -/
def FirstBroken (e : Environment) (err : SettingsError) : List Demand → Prop
  | [] => False
  | d :: ds => d.Broken e ∧ d.Reports e err ∨ ¬ d.Broken e ∧ FirstBroken e err ds

theorem firstBroken_append : FirstBroken e err (ds ++ ds') ↔
    FirstBroken e err ds ∨ (∀ d ∈ ds, ¬ d.Broken e) ∧ FirstBroken e err ds' := by
  induction ds with
  | nil => simp [FirstBroken]
  | cons d ds ih =>
    simp only [List.cons_append, FirstBroken, ih, List.forall_mem_cons]
    tauto

theorem exists_firstBroken_iff : (∃ err, FirstBroken e err ds) ↔ ∃ d ∈ ds, d.Broken e := by
  induction ds with
  | nil => simp [FirstBroken]
  | cons d ds ih =>
    simp only [FirstBroken, exists_or, exists_and_left, ih, List.exists_mem_cons_iff]
    constructor
    · rintro (⟨hd, -⟩ | ⟨-, hds⟩)
      · exact .inl hd
      · exact .inr hds
    · rintro (hd | hds)
      · exact .inl ⟨hd, hd.exists_reports⟩
      · by_cases hd : d.Broken e
        · exact .inl ⟨hd, hd.exists_reports⟩
        · exact .inr ⟨hd, hds⟩

/-! ## Meeting demands -/

section Meets

variable {α β : Type} {P : α → Prop} {Q : β → Prop} {x : Except SettingsError α}
  {f : α → Except SettingsError β}

/-- A computation that fails with what is reported of the first broken one of some demands, and
otherwise has a result with a property. -/
structure Meets (e : Environment) (ds : List Demand) (P : α → Prop)
    (x : Except SettingsError α) : Prop where
  refuses : ∀ err, x = .error err ↔ FirstBroken e err ds
  gives : ∀ a, x = .ok a → P a

theorem meets_pure {a : α} (h : P a) : Meets e [] P (pure a) where
  refuses _ := iff_of_false nofun id
  gives _ ha := by
    cases ha
    exact h

theorem meets_single (hrefuses : ∀ err, x = .error err ↔ d.Broken e ∧ d.Reports e err)
    (hgives : ∀ a, x = .ok a → P a) : Meets e [d] P x where
  refuses err := by
    simp only [hrefuses err, FirstBroken, and_false, or_false]
  gives := hgives

/-- One computation after another makes its demands after those of the other. -/
theorem Meets.bind (hx : Meets e ds P x) (hf : ∀ a, P a → Meets e ds' Q (f a)) :
    Meets e (ds ++ ds') Q (x >>= f) := by
  cases x with
  | error fault =>
    have hbroken : FirstBroken e fault ds := (hx.refuses fault).mp rfl
    have hrest : ∀ err, ¬ ((∀ d ∈ ds, ¬ d.Broken e) ∧ FirstBroken e err ds') := by
      rintro err ⟨hnone, -⟩
      obtain ⟨d, hd, hbroken⟩ := exists_firstBroken_iff.mp ⟨fault, hbroken⟩
      exact hnone d hd hbroken
    refine ⟨fun err ↦ ?_, nofun⟩
    rw [firstBroken_append, or_iff_left (hrest err), ← hx.refuses err, Except.error.injEq]
    exact Iff.of_eq (Except.error.injEq fault err)
  | ok a =>
    have hnone : ∀ err, ¬ FirstBroken e err ds := fun err h ↦ by
      cases (hx.refuses err).mpr h
    have hmet : ∀ d ∈ ds, ¬ d.Broken e := fun d hd hbroken ↦ by
      obtain ⟨err, herr⟩ := exists_firstBroken_iff.mpr ⟨d, hd, hbroken⟩
      exact hnone err herr
    have hrest := hf a (hx.gives a rfl)
    refine ⟨fun err ↦ ?_, hrest.gives⟩
    rw [firstBroken_append, or_iff_right (hnone err), and_iff_right hmet]
    exact hrest.refuses err

theorem Meets.cons (hx : Meets e [d] P x) (hf : ∀ a, P a → Meets e ds Q (f a)) :
    Meets e (d :: ds) Q (x >>= f) := hx.bind hf

end Meets

/-! ## Reading -/

variable {name : String}

section Value

variable {ε α : Type} {o : Option String} {default a : α} {parse : String → Except ε α}
  {wrap : ε → SettingsError}

theorem value_eq_ok_iff :
    (match o with | none => Except.ok default | some s => (parse s).mapError wrap) = .ok a ↔
      o = none ∧ a = default ∨ ∃ s, o = some s ∧ parse s = .ok a := by
  cases o with
  | none => simp [eq_comm]
  | some s => cases hs : parse s <;> simp [hs, Except.mapError]

theorem value_eq_error_iff :
    (match o with | none => Except.ok default | some s => (parse s).mapError wrap) = .error err ↔
      ∃ s fault, o = some s ∧ parse s = .error fault ∧ wrap fault = err := by
  cases o with
  | none => simp
  | some s => cases hs : parse s <;> simp [hs, Except.mapError]

end Value

/-- Whether a number is what a variable says, or what it is if the variable is not set. -/
def IsNumber (e : Environment) (name : String) (bits default n : Nat) : Prop :=
  e.value? name = none ∧ n = default ∨
    ∃ s, e.value? name = some s ∧ Text.Spells s n ∧ n ≤ maxWord bits

theorem word_eq_ok_iff {bits default n : Nat} :
    word e name bits default = .ok n ↔ IsNumber e name bits default n := by
  simp only [IsNumber, ← Text.readWord_eq_ok_iff]
  exact value_eq_ok_iff

theorem meets_word {bits default : Nat} :
    Meets e [.numeral name bits] (IsNumber e name bits default) (word e name bits default) := by
  refine meets_single (fun err ↦ value_eq_error_iff.trans ⟨?_, ?_⟩) fun n ↦ word_eq_ok_iff.mp
  · rintro ⟨s, fault, hs, hread, rfl⟩
    have hnone := Text.exists_readWord_eq_error_iff.mp ⟨fault, hread⟩
    exact ⟨⟨s, hs, hnone⟩, s, fault, hs, hread, rfl⟩
  · rintro ⟨-, s, fault, hs, hread, rfl⟩
    exact ⟨s, fault, hs, hread, rfl⟩

/-- Whether a policy is what a variable says, or what it is if the variable is not set. -/
def IsPolicy (e : Environment) (name : String) (default p : ExpiryPolicy) : Prop :=
  e.value? name = none ∧ p = default ∨
    ∃ s, e.value? name = some s ∧ Text.lower (Text.trim s) = p.name

theorem expiry_eq_ok_iff {default p : ExpiryPolicy} :
    expiry e name default = .ok p ↔ IsPolicy e name default p := by
  simp only [IsPolicy, ← ExpiryPolicy.parse_eq_ok_iff]
  exact value_eq_ok_iff

theorem meets_expiry {default : ExpiryPolicy} :
    Meets e [.policy name] (IsPolicy e name default) (expiry e name default) := by
  refine meets_single (fun err ↦ value_eq_error_iff.trans ⟨?_, ?_⟩) fun p ↦ expiry_eq_ok_iff.mp
  · rintro ⟨s, fault, hs, hread, rfl⟩
    obtain ⟨hnone, rfl⟩ := ExpiryPolicy.parse_eq_error_iff.mp hread
    exact ⟨⟨s, hs, hnone⟩, s, hs, rfl⟩
  · rintro ⟨⟨s, hs, hnone⟩, s', hs', rfl⟩
    obtain rfl : s = s' := Option.some.inj (hs.symm.trans hs')
    exact ⟨s, _, hs, ExpiryPolicy.parse_eq_error_iff.mpr ⟨hnone, rfl⟩, rfl⟩

theorem meets_set : Meets e [.set name] (fun s ↦ e.value? name = some s)
    ((e.value? name).elim (.error (.missing name)) .ok) := by
  cases hs : e.value? name with
  | none => exact meets_single (by simp [Demand.Broken, Demand.Reports, hs, eq_comm]) nofun
  | some s => exact meets_single (by simp [Demand.Broken, hs]) fun _ ha ↦ by cases ha; rfl

/-- How settings come from an environment: what its variables say, and a default for each variable
but the secret. -/
structure Describes (e : Environment) (s : Settings) : Prop where
  host : s.host = text e "HOST" "0.0.0.0"
  port : IsNumber e "PORT" 16 3000 s.port
  maxRequestBytes : IsNumber e "MAX_REQUEST_BODY_SIZE" 64 (1024 * 1024) s.maxRequestBytes
  redisUrl : s.redisUrl = text e "REDIS_URL" "redis://127.0.0.1:6379"
  jwtSecret : e.value? "JWT_SECRET" = some s.jwtSecret
  authCookie : s.authCookie = text e "AUTH_COOKIE_NAME" "auth_token"
  limit : IsNumber e "RATE_LIMIT_REQUESTS" 32 100 s.limit
  window : ∃ n, IsNumber e "RATE_LIMIT_WINDOW_SECS" 64 60 n ∧ s.window = Duration.ofSecs n
  counterPrefix : s.counterPrefix = text e "RATE_LIMIT_KEY_PREFIX" "rate_limit:"
  policy : IsPolicy e "RATE_LIMIT_EXPIRY" .rolling s.policy
  trustedProxies : s.trustedProxies = list e "TRUSTED_PROXIES" ""
  cacheTtl : ∃ n, IsNumber e "CACHE_TTL_SECS" 64 60 n ∧ s.cacheTtl = Duration.ofSecs n
  cacheSpace : s.cacheSpace = text e "CACHE_NAMESPACE" "cache:"
  maxEntryBytes : IsNumber e "CACHE_MAX_ENTRY_BYTES" 64 (1024 * 1024) s.maxEntryBytes
  corsOrigins : s.corsOrigins = list e "CORS_ALLOWED_ORIGINS" "*"
  logLevel : s.logLevel = text e "RUST_LOG" "info"
  logJson : s.logJson = true ↔ Text.lower (text e "LOG_FORMAT" "") = "json"
  includedPaths : s.includedPaths = paths e "LOG_INCLUDE_PATHS" ""
  excludedPaths : s.excludedPaths = paths e "LOG_EXCLUDE_PATHS" "/health,/ready"
  metricsPort : IsNumber e "METRICS_PORT" 16 9090 s.metricsPort

theorem meets_read : Meets e readings (Describes e) (read e) := by
  refine meets_word.cons fun port hport ↦ ?_
  refine meets_word.cons fun bytes hbytes ↦ ?_
  refine meets_set.cons fun secret hsecret ↦ ?_
  refine meets_word.cons fun limit hlimit ↦ ?_
  refine meets_word.cons fun window hwindow ↦ ?_
  refine meets_expiry.cons fun policy hpolicy ↦ ?_
  refine meets_word.cons fun ttl httl ↦ ?_
  refine meets_word.cons fun entry hentry ↦ ?_
  refine meets_word.cons fun metrics hmetrics ↦ ?_
  exact meets_pure
    { host := rfl
      port := hport
      maxRequestBytes := hbytes
      redisUrl := rfl
      jwtSecret := hsecret
      authCookie := rfl
      limit := hlimit
      window := ⟨window, hwindow, rfl⟩
      counterPrefix := rfl
      policy := hpolicy
      trustedProxies := rfl
      cacheTtl := ⟨ttl, httl, rfl⟩
      cacheSpace := rfl
      maxEntryBytes := hentry
      corsOrigins := rfl
      logLevel := rfl
      logJson := beq_iff_eq
      includedPaths := rfl
      excludedPaths := rfl
      metricsPort := hmetrics }

/-! ## Checking -/

/-- A number that is not zero by default is zero only if an environment says so. -/
theorem IsNumber.eq_zero_iff {bits default n : Nat} (h : IsNumber e name bits default n)
    (hdefault : default ≠ 0) : n = 0 ↔ IsZero e name := by
  obtain ⟨hnone, rfl⟩ | ⟨s, hs, hspells, hle⟩ := h
  · refine iff_of_false hdefault ?_
    rintro ⟨s, hs, -⟩
    exact absurd (hnone.symm.trans hs) nofun
  · constructor
    · rintro rfl
      exact ⟨s, hs, hspells⟩
    · rintro ⟨s', hs', hzero⟩
      obtain rfl : s = s' := Option.some.inj (hs.symm.trans hs')
      exact Text.Spells.unique hspells hzero

theorem isEmpty_text_iff {default : String} (h : default ≠ "") :
    (text e name default).isEmpty = true ↔ e.value? name = some "" := by
  rw [String.isEmpty_iff, text]
  cases e.value? name <;> simp [h]

/-- A check that a demand stands for, in front of others. -/
theorem ite_eq_some_iff {p : Prop} [Decidable p] {own : SettingsError}
    {rest : Option SettingsError} (hp : p ↔ d.Broken e) (hown : d.Reports e err ↔ err = own)
    (hrest : rest = some err ↔ FirstBroken e err ds) :
    (if p then some own else rest) = some err ↔ FirstBroken e err (d :: ds) := by
  rw [FirstBroken, ← hp, hown, ← hrest]
  split_ifs with h
  · simp [h, eq_comm]
  · simp [h]

theorem ofSecs_eq_zero_iff {n : Nat} : Duration.ofSecs n = 0 ↔ n = 0 := by
  rw [Duration.ofSecs, Nat.mul_eq_zero]
  exact or_iff_left (by decide)

/-- Settings that were read are faulty exactly if the environment breaks a demand of checking. -/
theorem Describes.fault?_eq_some_iff {s : Settings} (h : Describes e s) :
    s.fault? = some err ↔ FirstBroken e err checks := by
  obtain ⟨window, hwindow, hs⟩ := h.window
  obtain ⟨ttl, httl, hs'⟩ := h.cacheTtl
  have hsecret : (Text.trim s.jwtSecret).isEmpty = true ↔
      (Demand.visible "JWT_SECRET").Broken e := by
    rw [Text.trim_isEmpty_iff, Demand.Broken, h.jwtSecret]
    simp
  have hlimits : (s.isLimited && s.window == 0) = true ↔
      (Demand.positiveUnless "RATE_LIMIT_WINDOW_SECS" "RATE_LIMIT_REQUESTS").Broken e := by
    rw [Demand.Broken, ← hwindow.eq_zero_iff (by decide), ← h.limit.eq_zero_iff (by decide),
      isLimited, hs, Bool.and_eq_true, and_comm, beq_iff_eq, ofSecs_eq_zero_iff,
      decide_eq_true_iff, Nat.pos_iff_ne_zero]
  have httl : s.cacheTtl = 0 ↔ (Demand.positive "CACHE_TTL_SECS").Broken e := by
    rw [Demand.Broken, ← httl.eq_zero_iff (by decide), hs', ofSecs_eq_zero_iff]
  have hbytes : s.maxRequestBytes = 0 ↔ (Demand.positive "MAX_REQUEST_BODY_SIZE").Broken e :=
    h.maxRequestBytes.eq_zero_iff (by decide)
  have hcookie : s.authCookie.isEmpty = true ↔ (Demand.nonempty "AUTH_COOKIE_NAME").Broken e :=
    h.authCookie ▸ isEmpty_text_iff (by decide)
  have hspace : s.cacheSpace.isEmpty = true ↔ (Demand.nonempty "CACHE_NAMESPACE").Broken e :=
    h.cacheSpace ▸ isEmpty_text_iff (by decide)
  exact ite_eq_some_iff hsecret Iff.rfl <| ite_eq_some_iff hcookie Iff.rfl <|
    ite_eq_some_iff hlimits Iff.rfl <| ite_eq_some_iff httl Iff.rfl <|
    ite_eq_some_iff hspace Iff.rfl <| ite_eq_some_iff hbytes Iff.rfl <| iff_of_false nofun id

theorem meets_ofEnvironment :
    Meets e demands (fun s ↦ Describes e s ∧ s.fault? = none) (ofEnvironment e) := by
  refine meets_read.bind fun s hs ↦ ?_
  cases hfault : s.fault? with
  | none =>
    refine ⟨fun err ↦ ?_, fun _ ha ↦ ?_⟩
    · rw [← hs.fault?_eq_some_iff, hfault]
      exact iff_of_false nofun nofun
    · cases ha
      exact ⟨hs, hfault⟩
  | some error =>
    refine ⟨fun err ↦ ?_, nofun⟩
    rw [← hs.fault?_eq_some_iff, hfault, Option.some.injEq]
    exact Iff.of_eq (Except.error.injEq error err)

/-! ## Accepted settings -/

/-- What holds of all settings that are accepted. -/
structure IsSound (s : Settings) : Prop where
  secret : ∃ c ∈ s.jwtSecret.toList, Text.isBlank c = false
  cookie : s.authCookie ≠ ""
  space : s.cacheSpace ≠ ""
  ttl : 0 < s.cacheTtl
  bytes : 0 < s.maxRequestBytes
  /-- A limit comes with a window of at least a second. -/
  window : 0 < s.limit → nanosPerSec ≤ s.window
  items : ∀ item ∈ s.trustedProxies ++ s.corsOrigins ++ s.includedPaths ++ s.excludedPaths,
    IsItem item
  paths : ∀ path ∈ s.includedPaths ++ s.excludedPaths, path.toList.head? = some '/'

theorem fault?_eq_none_iff {s : Settings} : s.fault? = none ↔
    ¬ (Text.trim s.jwtSecret).isEmpty = true ∧ ¬ s.authCookie.isEmpty = true ∧
      ¬ (s.isLimited && s.window == 0) = true ∧ s.cacheTtl ≠ 0 ∧
        ¬ s.cacheSpace.isEmpty = true ∧ s.maxRequestBytes ≠ 0 := by
  rw [fault?]
  split_ifs <;> simp [*]

theorem nanosPerSec_le_ofSecs {n : Nat} (h : n ≠ 0) : nanosPerSec ≤ Duration.ofSecs n :=
  Nat.le_mul_of_pos_left _ (Nat.pos_of_ne_zero h)

theorem isItem_of_mem_list {item default : String} (h : item ∈ list e name default) :
    IsItem item := isItem_of_mem_items h

theorem isItem_of_mem_paths {item default : String} (h : item ∈ paths e name default) :
    IsItem item := isItem_of_mem_list (List.mem_of_mem_filter h)

theorem Describes.isSound {s : Settings} (h : Describes e s) (hfault : s.fault? = none) :
    IsSound s := by
  obtain ⟨hsecret, hcookie, hwindow, httl, hspace, hbytes⟩ := fault?_eq_none_iff.mp hfault
  refine ⟨?secret, ?cookie, ?space, ?ttl, ?bytes, ?window, ?items, ?paths⟩
  case secret =>
    rw [Text.trim_isEmpty_iff] at hsecret
    simpa using hsecret
  case cookie => exact fun heq ↦ hcookie (String.isEmpty_iff.mpr heq)
  case space => exact fun heq ↦ hspace (String.isEmpty_iff.mpr heq)
  case ttl => exact Nat.pos_of_ne_zero httl
  case bytes => exact Nat.pos_of_ne_zero hbytes
  case window =>
    intro hlimit
    obtain ⟨n, -, hs⟩ := h.window
    rw [isLimited, decide_eq_true hlimit, Bool.true_and, beq_iff_eq, hs, ofSecs_eq_zero_iff]
      at hwindow
    exact hs ▸ nanosPerSec_le_ofSecs hwindow
  case items =>
    simp only [List.mem_append, h.trustedProxies, h.corsOrigins, h.includedPaths, h.excludedPaths]
    rintro item (((hitem | hitem) | hitem) | hitem)
    · exact isItem_of_mem_list hitem
    · exact isItem_of_mem_list hitem
    · exact isItem_of_mem_paths hitem
    · exact isItem_of_mem_paths hitem
  case paths =>
    simp only [List.mem_append, h.includedPaths, h.excludedPaths]
    rintro path (hpath | hpath)
    · exact head?_of_mem_paths hpath
    · exact head?_of_mem_paths hpath

/-- Unless the limit is lifted, there is a limiter with the limit and window of sound settings. -/
theorem IsSound.exists_limiter {s : Settings} (h : IsSound s) (hlimit : 0 < s.limit) :
    ∃ l, Limiter.new s.limit s.window s.counterPrefix s.policy = .ok l := by
  rw [Limiter.new, dif_neg (Nat.pos_iff_ne_zero.mp hlimit),
    dif_neg (Nat.not_lt.mpr (h.window hlimit))]
  exact ⟨_, rfl⟩

theorem IsSound.exists_start {s : Settings} (h : IsSound s) (now : Instant) :
    ∃ limiter, Site.start s now = .ok ⟨s, now, limiter⟩ ∧
      (limiter.isSome = true ↔ 0 < s.limit) := by
  rw [Site.start, Site.limiterOf, isLimited]
  by_cases hlimit : 0 < s.limit
  · obtain ⟨l, hl⟩ := h.exists_limiter hlimit
    rw [decide_eq_true hlimit, if_pos rfl, hl]
    exact ⟨some l, rfl, iff_of_true rfl hlimit⟩
  · rw [decide_eq_false hlimit, if_neg Bool.false_ne_true]
    exact ⟨none, rfl, iff_of_false Bool.false_ne_true hlimit⟩

/-! ## Environments -/

/-- How settings are had from an environment. -/
structure Vetted (e : Environment) : Prop where
  /-- They are what the variables say. -/
  describes (s : Settings) : ofEnvironment e = .ok s → Describes e s
  sound (s : Settings) : ofEnvironment e = .ok s → IsSound s
  /-- A site starts with them whenever it is started, with a limiter unless the limit is lifted. -/
  starts (s : Settings) : ofEnvironment e = .ok s → ∀ now : Instant,
    ∃ limiter, Site.start s now = .ok ⟨s, now, limiter⟩ ∧ (limiter.isSome = true ↔ 0 < s.limit)
  /-- There are none exactly if some demand is broken. -/
  refused_iff : (∃ err, ofEnvironment e = .error err) ↔ ∃ d ∈ demands, d.Broken e
  /-- What is reported then is the first demand that is broken. -/
  error_iff (err : SettingsError) : ofEnvironment e = .error err ↔ FirstBroken e err demands
  /-- The program fails with this report and in no other way. -/
  failure (err : SettingsError) : ofEnvironment e = .error err →
    err.failure = .config err.message

theorem isSound_of_ofEnvironment {s : Settings} (h : ofEnvironment e = .ok s) : IsSound s :=
  have ⟨hdescribes, hfault⟩ := meets_ofEnvironment.gives s h
  hdescribes.isSound hfault

theorem vetted_of (e : Environment) : Vetted e where
  describes s hs := (meets_ofEnvironment.gives s hs).1
  sound _ hs := isSound_of_ofEnvironment hs
  starts _ hs := (isSound_of_ofEnvironment hs).exists_start
  refused_iff := by
    simp only [meets_ofEnvironment.refuses]
    exact exists_firstBroken_iff
  error_iff := meets_ofEnvironment.refuses
  failure _ _ := rfl

/-- **Settings.** Whatever variables a process has, and whatever a file adds to them, the settings
that they describe are vetted. Only a file with the character zero, or one that puts in the value of
a variable that has it, can end the program before. -/
theorem vetted (process : List (String × Bytes)) (file : String) :
    (∀ e, (Environment.ofProcess process).withFile? file = some e → Vetted e) ∧
      ((Environment.ofProcess process).Clean → Environment.zero ∉ file.toList →
        (Environment.ofProcess process).withFile? file ≠ none) :=
  ⟨fun e _ ↦ vetted_of e, fun hclean hfile ↦ Environment.withFile?_ne_none hclean hfile⟩

theorem vetted_secretAndPort :
    let e : Environment := [("JWT_SECRET", "s"), ("PORT", "80")]
    (Environment.ofProcess [("JWT_SECRET", utf8 "s")]).withFile? "PORT=80" = some e ∧
      Vetted e ∧ (ofEnvironment e).toOption.map port = some 80 := by
  intro e
  have hfile : (Environment.ofProcess [("JWT_SECRET", utf8 "s")]).withFile? "PORT=80" = some e := by
    decide +kernel
  exact ⟨hfile, (vetted _ _).1 e hfile, by decide +kernel⟩

/-- A port that is no text is not refused, and there is the port that there would be without it. A
host with the character zero ends the program. -/
theorem not_refused_of_no_text :
    (∀ s n, Text.Spells s n → utf8 s ≠ [0xFF]) ∧
      (∃ e, (Environment.ofProcess [("JWT_SECRET", utf8 "s"), ("PORT", [0xFF])]).withFile? ""
          = some e ∧ (ofEnvironment e).toOption.map port = some 3000) ∧
      (Environment.ofProcess [("JWT_SECRET", utf8 "s")]).withFile? "HOST=\x00" = none := by
  refine ⟨fun s n _ hs ↦ ?_, ⟨[("JWT_SECRET", "s")], ?_, ?_⟩, ?_⟩
  · have hread := ofUtf8?_utf8 s
    have hnone : ofUtf8? [0xFF] = none := by decide +kernel
    rw [hs, hnone] at hread
    cases hread
  all_goals decide +kernel

/-- A port that does not fit comes before a secret that is missing, and both come before a lifetime
of zero. -/
example : ofEnvironment [("CACHE_TTL_SECS", "0"), ("PORT", "65536")]
    = .error (.invalid "PORT" (.numeral .tooLarge)) := rfl

/-- A window of zero is of no concern where the limit is lifted. -/
example : (ofEnvironment [("JWT_SECRET", "s"), ("RATE_LIMIT_REQUESTS", "+0"),
    ("RATE_LIMIT_WINDOW_SECS", "0")]).isOk = true := rfl

end Settings

end Gatehouse
