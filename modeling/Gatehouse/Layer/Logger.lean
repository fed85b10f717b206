import Gatehouse.Context
import Gatehouse.Response

/-!
# One record for every request

The logger measures every request and writes one record about it when it is answered, unless the
path is one that is not logged. The measurement is made in any case.
-/

namespace Gatehouse

/-- Which paths are logged: those that begin with an included text, or all if none is included,
but none that begins with an excluded one. -/
structure LogFilter where
  included : List String
  excluded : List String

def LogFilter.shouldLog (f : LogFilter) (path : String) : Bool :=
  !f.excluded.any (Text.startsWith path) &&
    (f.included.isEmpty || f.included.any (Text.startsWith path))

namespace Service

variable {σ : Type}

/-- What a request without a route is measured as. -/
def unmatchedEndpoint : String := "unmatched"

/-- Measure and log a request. -/
def logged (filter : LogFilter) (next : Service σ) : Service σ := fun req ↦ do
  let start ← Run.now
  let response ← next req
  let elapsed := (← Run.now) - start
  Run.count (.requestDuration (req.route.getD unmatchedEndpoint) req.method.name response.status
    elapsed)
  if filter.shouldLog req.target.path then
    Run.log (.completed req.method.name req.target.path response.status elapsed (Context.of req))
  return response

end Service

end Gatehouse
