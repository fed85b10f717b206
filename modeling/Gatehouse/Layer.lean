import Gatehouse.Layer.Auth
import Gatehouse.Layer.Cache
import Gatehouse.Layer.Logger
import Gatehouse.Layer.Marks
import Gatehouse.Layer.RateLimit

/-!
# Layers

A layer is one of seven things that a request may pass on its way to a handler. A list of layers,
the outermost first, makes a service out of a handler.
-/

namespace Gatehouse

/-- Something that a request passes on its way. -/
inductive Layer where
  | requestId (trust : Net.Trust)
  | securityHeaders
  | logger (filter : LogFilter)
  | rateLimit (limiter : Limiter)
  | cache (settings : CacheSettings)
  | invalidate (pattern : String)
  | auth (gate : Gate) (cookie : String)

namespace Service

variable {σ : Type} [CounterStore σ] [CacheStore σ]

/-- The service with a layer around it. -/
def wrapped (around : Surroundings) (layer : Layer) (inner : Service σ) : Service σ :=
  match layer with
  | .requestId trust => identified around trust inner
  | .securityHeaders => secured inner
  | .logger filter => logged filter inner
  | .rateLimit limiter => limited limiter inner
  | .cache settings => cached settings inner
  | .invalidate pattern => invalidating pattern inner
  | .auth gate cookie => gated around gate cookie inner

/-- The service with several layers around it, the first one outermost. -/
def stacked (around : Surroundings) (layers : List Layer) (inner : Service σ) : Service σ :=
  layers.foldr (wrapped around) inner

end Service

end Gatehouse
