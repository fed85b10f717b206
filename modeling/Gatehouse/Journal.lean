import Gatehouse.Cache.Entry
import Gatehouse.Failure
import Gatehouse.Gate
import Gatehouse.Http.Request

/-!
# The journal

While a request is served, four kinds of things are noted: events for the log, counts for the
metrics, calls of the store, and visits of the handler. They are noted in one list in the order in
which they happen, so that "nothing is noted" is one equation, and each kind is a view of it.

Events and counts are values with a constructor for each kind. Their names, levels and fields are
functions of the value, and no text is put together elsewhere.
-/

namespace Gatehouse

/-! ## Events -/

inductive Level where
  | info
  | warn
  | error
  deriving DecidableEq, Repr

def Level.name : Level → String
  | .info => "INFO"
  | .warn => "WARN"
  | .error => "ERROR"

inductive FieldValue where
  | text (s : String)
  | number (n : Nat)
  deriving DecidableEq, Repr

inductive Event where
  | limiterEnabled (limit : Nat) (window : Duration) (policy : ExpiryPolicy) (networks : Nat)
  | limiterDisabled
  | networkSkipped (text : String)
  | completed (method path : String) (status : Http.Status) (duration : Duration) (who : Context)
  | rejected (operation : String) (failure : Failure) (who : Context)
  | anonymous (failure : Failure)
  | readFailed (key : String) (e : StoreError)
  | unreadable (key : String) (e : Cache.EntryError)
  | writeFailed (key : String) (e : StoreError)
  | invalidationFailed (pattern : String) (e : StoreError)
  | storeUnreachable (e : StoreError)
  | purgeRequested (user : User)
  deriving DecidableEq, Repr

namespace Event

/-- How serious an event is. A request that was turned away is an error if the server is to
blame. -/
def level : Event → Level
  | .limiterEnabled .. => .info
  | .limiterDisabled => .info
  | .networkSkipped _ => .warn
  | .completed _ _ status _ _ =>
    match status.outcome with
    | .success => .info
    | .fail => .warn
    | .error => .error
  | .rejected _ failure _ => if failure.status.isServerError then .error else .warn
  | .anonymous _ => .warn
  | .readFailed _ _ => .warn
  | .unreadable _ _ => .warn
  | .writeFailed _ _ => .warn
  | .invalidationFailed _ _ => .warn
  | .storeUnreachable _ => .warn
  | .purgeRequested _ => .info

def message : Event → String
  | .limiterEnabled .. => "Rate limiting enabled"
  | .limiterDisabled => "Rate limiting disabled (RATE_LIMIT_REQUESTS=0)"
  | .networkSkipped _ => "Invalid CIDR range in TRUSTED_PROXIES, skipping"
  | .completed .. => "Request completed"
  | .rejected .. => "Request rejected"
  | .anonymous _ => "Optional authentication failed, continuing anonymously"
  | .readFailed _ _ => "Cache read failed, serving from handler"
  | .unreadable _ _ => "Unreadable cache entry, serving from handler"
  | .writeFailed _ _ => "Cache write failed"
  | .invalidationFailed _ _ => "Cache invalidation failed"
  | .storeUnreachable _ => "Readiness check failed: store unreachable"
  | .purgeRequested _ => "Response cache purge requested"

def policyLabel : ExpiryPolicy → String
  | .rolling => "Rolling"
  | .fixed => "Fixed"

def fields : Event → List (String × FieldValue)
  | .limiterEnabled limit window policy networks =>
    [("limit", .number limit), ("window_secs", .number window.wholeSecs),
      ("expiry", .text (policyLabel policy)), ("trusted_proxies", .number networks)]
  | .limiterDisabled => []
  | .networkSkipped text => [("cidr", .text text)]
  | .completed method path status duration who =>
    [("method", .text method), ("path", .text path), ("outcome", .text status.outcome.name),
      ("status", .number status.code), ("duration_ms", .number duration.wholeMillis),
      ("client_ip", .text who.clientIp), ("user_agent", .text who.userAgent),
      ("referrer", .text who.referrer), ("request_id", .text who.requestId)]
  | .rejected operation failure who =>
    [("operation", .text operation), ("code", .text failure.code),
      ("error", .text failure.message), ("status", .number failure.status.code),
      ("client_ip", .text who.clientIp), ("user_agent", .text who.userAgent),
      ("request_id", .text who.requestId)]
  | .anonymous failure =>
    [("operation", .text Gate.optional.operation), ("code", .text failure.code),
      ("error", .text failure.message)]
  | .readFailed key e => [("key", .text key), ("error", .text e.message)]
  | .unreadable key e => [("key", .text key), ("error", .text e.message)]
  | .writeFailed key e => [("key", .text key), ("error", .text e.message)]
  | .invalidationFailed pattern e => [("pattern", .text pattern), ("error", .text e.message)]
  | .storeUnreachable e => [("error", .text e.message)]
  | .purgeRequested user => [("user_id", .text user.id), ("email", .text user.email)]

end Event

/-! ## Metrics -/

/-- How a look into the cache ended. -/
inductive LookupResult where
  | hit
  | miss
  | error
  deriving DecidableEq, Repr

/-- How an attempt to store a response ended. -/
inductive StoreResult where
  | stored
  | skipped
  | error
  deriving DecidableEq, Repr

/-- Something that is counted. -/
inductive Metric where
  | limiterRejection
  | limiterStoreError
  | cacheLookup (result : LookupResult)
  | cacheStore (result : StoreResult)
  | cacheInvalidation (succeeded : Bool)
  | authFailure (gate : Gate) (reason : String)
  | requestDuration (endpoint method : String) (status : Http.Status) (duration : Duration)
  deriving DecidableEq, Repr

namespace Metric

def name : Metric → String
  | .limiterRejection => "edge_rate_limit_rejections_total"
  | .limiterStoreError => "edge_rate_limit_store_errors_total"
  | .cacheLookup _ => "edge_cache_lookups_total"
  | .cacheStore _ => "edge_cache_stores_total"
  | .cacheInvalidation _ => "edge_cache_invalidations_total"
  | .authFailure _ _ => "edge_auth_failures_total"
  | .requestDuration .. => "edge_request_duration_seconds"

def labels : Metric → List (String × String)
  | .limiterRejection => []
  | .limiterStoreError => []
  | .cacheLookup .hit => [("result", "hit")]
  | .cacheLookup .miss => [("result", "miss")]
  | .cacheLookup .error => [("result", "error")]
  | .cacheStore .stored => [("result", "stored")]
  | .cacheStore .skipped => [("result", "skipped")]
  | .cacheStore .error => [("result", "error")]
  | .cacheInvalidation true => [("result", "ok")]
  | .cacheInvalidation false => [("result", "error")]
  | .authFailure gate reason => [("gate", gate.name), ("reason", reason)]
  | .requestDuration endpoint method status _ =>
    [("endpoint", endpoint), ("method", method), ("status", status.code.repr)]

/-- The length of time that a metric records, if it records one. -/
def duration? : Metric → Option Duration
  | .requestDuration _ _ _ duration => some duration
  | _ => none

/-- The metric with its labels as one text. -/
def text (m : Metric) : String :=
  let labels := m.labels.map fun l ↦ " " ++ l.1 ++ "=" ++ l.2
  let duration := match m.duration? with
    | none => ""
    | some d => " ms=" ++ d.wholeMillis.repr
  m.name ++ String.join labels ++ duration

end Metric

/-! ## Notes -/

/-- A call of the store: the operation and the key or pattern that it was about. -/
structure StoreCall where
  op : StoreOp
  subject : String
  deriving DecidableEq, Repr

/-- What a handler knew about the request that it was called for. -/
structure Visit where
  user : Option User
  context : Option Context
  deriving DecidableEq, Repr

/-- Something that happened while a request was served. -/
inductive Note where
  | event (e : Event)
  | metric (m : Metric)
  | call (c : StoreCall)
  | visit (v : Visit)
  deriving DecidableEq, Repr

/-- What happened, in order. -/
abbrev Journal := List Note

namespace Journal

def events (j : Journal) : List Event := j.filterMap fun n ↦
  match n with
  | .event e => some e
  | _ => none

def metrics (j : Journal) : List Metric := j.filterMap fun n ↦
  match n with
  | .metric m => some m
  | _ => none

def calls (j : Journal) : List StoreCall := j.filterMap fun n ↦
  match n with
  | .call c => some c
  | _ => none

def visits (j : Journal) : List Visit := j.filterMap fun n ↦
  match n with
  | .visit v => some v
  | _ => none

end Journal

end Gatehouse
