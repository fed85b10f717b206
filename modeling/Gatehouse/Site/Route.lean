import Gatehouse.Http.Request

/-!
# Routes

The site has six routes, each with one path and one method that it serves. Where representations
may be asked for, their header fields may be asked for alone.
-/

namespace Gatehouse

inductive Route where
  | health
  | ready
  | stats
  | me
  | session
  | purge
  deriving DecidableEq, Repr

namespace Route

def all : List Route := [health, ready, stats, me, session, purge]

def path : Route → String
  | health => "/health"
  | ready => "/ready"
  | stats => "/stats"
  | me => "/me"
  | session => "/session"
  | purge => "/admin/cache/purge"

def ofPath? (path : String) : Option Route := all.find? fun r ↦ r.path == path

/-- The methods that a route serves. -/
def methods : Route → List Http.Method
  | purge => [.post]
  | _ => [.get, .head]

def serves (r : Route) (m : Http.Method) : Bool := r.methods.contains m

/-- The methods that a route serves, as clients are told. -/
def allowed (r : Route) : String := ",".intercalate (r.methods.map Http.Method.name)

end Route

end Gatehouse
