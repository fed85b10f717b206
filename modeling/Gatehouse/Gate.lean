/-!
# Gates

A route may be open to everybody, to users or to administrators only. The gate in front of it
says what becomes of a request without a valid identity: the required and the admin gate turn it
away, the optional gate lets it through as nobody's.
-/

namespace Gatehouse

inductive Gate where
  | required
  | admin
  | optional
  deriving DecidableEq, Repr

namespace Gate

def name : Gate → String
  | .required => "required"
  | .admin => "admin"
  | .optional => "optional"

/-- What the log calls the work of a gate. -/
def operation (g : Gate) : String := "auth_" ++ g.name

end Gate

end Gatehouse
