import Gatehouse.Failure
import Gatehouse.Settings.Environment
import Gatehouse.Text.Decimal

/-!
# Settings

Everything that can be set, with what it is if nothing is said. Variables are read in a fixed
order and the first one that cannot be read is reported; only when all have been read are the
values checked against each other's needs, again in a fixed order.
-/

namespace Gatehouse

structure Settings where
  host : String
  port : Nat
  maxRequestBytes : Nat
  redisUrl : String
  jwtSecret : String
  authCookie : String
  /-- How many requests a client may make in a window; zero lifts the limit. -/
  limit : Nat
  window : Duration
  counterPrefix : String
  policy : ExpiryPolicy
  trustedProxies : List String
  cacheTtl : Duration
  cacheSpace : String
  maxEntryBytes : Nat
  corsOrigins : List String
  logLevel : String
  logJson : Bool
  includedPaths : List String
  excludedPaths : List String
  metricsPort : Nat
  deriving DecidableEq, Repr

/-- What is wrong with the value of a variable. -/
inductive ValueError where
  | numeral (e : Text.NumeralError)
  | policy (e : ExpiryPolicy.Unknown)
  deriving DecidableEq, Repr

def ValueError.message : ValueError → String
  | .numeral e => e.message
  | .policy e => e.message

/-- Why there are no settings. -/
inductive SettingsError where
  | missing (name : String)
  | invalid (name : String) (e : ValueError)
  | empty (name : String)
  | zero (name : String)
  deriving DecidableEq, Repr

namespace SettingsError

def message : SettingsError → String
  | .missing name => name ++ " must be set"
  | .invalid name e => "Invalid " ++ name ++ ": " ++ e.message
  | .empty name => name ++ " must not be empty"
  | .zero name => name ++ " must be greater than 0"

def failure (e : SettingsError) : Failure := .config e.message

end SettingsError

namespace Settings

/-! ## Reading variables -/

/-- A text, or what it is if it is not set. -/
def text (e : Environment) (name default : String) : String := (e.value? name).getD default

/-- A number that fits a word of `bits` bits. -/
def word (e : Environment) (name : String) (bits default : Nat) : Except SettingsError Nat :=
  match e.value? name with
  | none => .ok default
  | some s => (Text.readWord bits s).mapError fun error ↦ .invalid name (.numeral error)

def expiry (e : Environment) (name : String) (default : ExpiryPolicy) :
    Except SettingsError ExpiryPolicy :=
  match e.value? name with
  | none => .ok default
  | some s => (ExpiryPolicy.parse s).mapError fun error ↦ .invalid name (.policy error)

/-- The items of a list: what stands between commas, trimmed, unless it is empty. -/
def items (s : String) : List String :=
  ((Text.pieces ',' s).map Text.trim).filter fun item ↦ !item.isEmpty

def list (e : Environment) (name default : String) : List String := items (text e name default)

/-- A list of paths; items that begin with no slash are left out. -/
def paths (e : Environment) (name default : String) : List String :=
  (list e name default).filter fun item ↦ Text.startsWith item "/"

/-- The settings that an environment describes, before they are checked. -/
def read (e : Environment) : Except SettingsError Settings := do
  let port ← word e "PORT" 16 3000
  let maxRequestBytes ← word e "MAX_REQUEST_BODY_SIZE" 64 (1024 * 1024)
  let jwtSecret ← (e.value? "JWT_SECRET").elim (.error (.missing "JWT_SECRET")) .ok
  let limit ← word e "RATE_LIMIT_REQUESTS" 32 100
  let window ← word e "RATE_LIMIT_WINDOW_SECS" 64 60
  let policy ← expiry e "RATE_LIMIT_EXPIRY" .rolling
  let cacheTtl ← word e "CACHE_TTL_SECS" 64 60
  let maxEntryBytes ← word e "CACHE_MAX_ENTRY_BYTES" 64 (1024 * 1024)
  let metricsPort ← word e "METRICS_PORT" 16 9090
  return {
    host := text e "HOST" "0.0.0.0"
    port
    maxRequestBytes
    redisUrl := text e "REDIS_URL" "redis://127.0.0.1:6379"
    jwtSecret
    authCookie := text e "AUTH_COOKIE_NAME" "auth_token"
    limit
    window := Duration.ofSecs window
    counterPrefix := text e "RATE_LIMIT_KEY_PREFIX" "rate_limit:"
    policy
    trustedProxies := list e "TRUSTED_PROXIES" ""
    cacheTtl := Duration.ofSecs cacheTtl
    cacheSpace := text e "CACHE_NAMESPACE" "cache:"
    maxEntryBytes
    corsOrigins := list e "CORS_ALLOWED_ORIGINS" "*"
    logLevel := text e "RUST_LOG" "info"
    logJson := Text.lower (text e "LOG_FORMAT" "") == "json"
    includedPaths := paths e "LOG_INCLUDE_PATHS" ""
    excludedPaths := paths e "LOG_EXCLUDE_PATHS" "/health,/ready"
    metricsPort }

/-! ## Checking -/

def isLimited (s : Settings) : Bool := 0 < s.limit

/-- The first thing that is wrong with settings. -/
def fault? (s : Settings) : Option SettingsError :=
  if (Text.trim s.jwtSecret).isEmpty then some (.empty "JWT_SECRET")
  else if s.authCookie.isEmpty then some (.empty "AUTH_COOKIE_NAME")
  else if s.isLimited && s.window == 0 then some (.zero "RATE_LIMIT_WINDOW_SECS")
  else if s.cacheTtl = 0 then some (.zero "CACHE_TTL_SECS")
  else if s.cacheSpace.isEmpty then some (.empty "CACHE_NAMESPACE")
  else if s.maxRequestBytes = 0 then some (.zero "MAX_REQUEST_BODY_SIZE")
  else none

/-- The settings that an environment describes, if nothing is wrong with them. -/
def ofEnvironment (e : Environment) : Except SettingsError Settings := do
  let s ← read e
  match s.fault? with
  | some error => throw error
  | none => return s

def default : Settings where
  host := "0.0.0.0"
  port := 3000
  maxRequestBytes := 1024 * 1024
  redisUrl := "redis://127.0.0.1:6379"
  jwtSecret := "dev-secret-change-me"
  authCookie := "auth_token"
  limit := 100
  window := Duration.ofSecs 60
  counterPrefix := "rate_limit:"
  policy := .rolling
  trustedProxies := []
  cacheTtl := Duration.ofSecs 60
  cacheSpace := "cache:"
  maxEntryBytes := 1024 * 1024
  corsOrigins := ["*"]
  logLevel := "info"
  logJson := false
  includedPaths := []
  excludedPaths := ["/health", "/ready"]
  metricsPort := 9090

/-! ## What follows from settings -/

def serverAddress (s : Settings) : String := s.host ++ ":" ++ s.port.repr

/-- The pattern that the keys of all cached responses match. -/
def purgePattern (s : Settings) : String := s.cacheSpace ++ "*"

def offersMetrics (s : Settings) : Bool := 0 < s.metricsPort

def metricsAddress? (s : Settings) : Option String :=
  if s.offersMetrics then some ("0.0.0.0:" ++ s.metricsPort.repr) else none

end Settings

end Gatehouse
