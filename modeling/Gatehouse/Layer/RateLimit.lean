import Gatehouse.Context
import Gatehouse.Limiter
import Gatehouse.Response

/-!
# Limiting requests in front of a service

A request beyond the limit is turned away, and so is every request that could not be counted: a
store that does not answer must not open the gate to everybody. The response says how the client
stands.
-/

namespace Gatehouse.Service

variable {σ : Type}

def overLimit (d : Decision) (now : Instant) (refusal : Response) : Response :=
  { refusal with headers := d.report refusal.headers }.withText "retry-after"
    (d.retryAfter now.unixSecs).repr

/-- Let a request through if its client is within the limit. -/
def limited [CounterStore σ] (limiter : Limiter) (next : Service σ) : Service σ := fun req ↦ do
  let who := Context.of req
  match ← limiter.check who.clientIp with
  | .error e =>
    Run.count .limiterStoreError
    reject "rate_limit" who (.store e)
  | .ok decision =>
    if decision.admitted then
      let response ← next req
      return { response with headers := decision.report response.headers }
    else
      Run.count .limiterRejection
      let refusal ← reject "rate_limit" who .rateLimited
      return overLimit decision (← Run.now) refusal

end Gatehouse.Service
