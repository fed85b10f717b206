import Gatehouse.Layer
import Gatehouse.Site.Cors
import Gatehouse.Site.Handlers
import Gatehouse.Site.Route

/-!
# The site

The whole service: the layers that every request passes, the route that it goes to, and the layers
of that route. A request that goes to no route, or asks a route for what it does not serve, passes
the same layers and is told so.

What is said about the length of a response, and about the methods of a route, is put on last, when
everything else has had its say.
-/

namespace Gatehouse

/-- A running site. -/
structure Site where
  settings : Settings
  started : Instant
  limiter : Option Limiter

namespace Site

/-- The limiter of some settings, if they limit requests. -/
def limiterOf (s : Settings) : Except LimiterError (Option Limiter) :=
  if s.isLimited then (Limiter.new s.limit s.window s.counterPrefix s.policy).map some
  else .ok none

def start (s : Settings) (now : Instant) : Except LimiterError Site :=
  (limiterOf s).map fun limiter ↦ ⟨s, now, limiter⟩

def startEvents (site : Site) : List Event :=
  let s := site.settings
  let limiting := match site.limiter with
    | some l => .limiterEnabled l.limit l.window l.policy s.trustedProxies.length
    | none => .limiterDisabled
  limiting :: (Net.Trust.rejected s.trustedProxies).map .networkSkipped

/-! ## Layers -/

/-- The layers that every request passes. -/
def layers (site : Site) : List Layer :=
  [.requestId (Net.Trust.ofTexts site.settings.trustedProxies), .securityHeaders,
    .logger ⟨site.settings.includedPaths, site.settings.excludedPaths⟩] ++
    (site.limiter.map Layer.rateLimit).toList

def cacheSettings (site : Site) : CacheSettings :=
  { ttl := site.settings.cacheTtl, space := site.settings.cacheSpace
    maxEntryBytes := site.settings.maxEntryBytes }

def routeLayers (site : Site) : Route → List Layer
  | .stats => [.cache site.cacheSettings]
  | .me => [.auth .required site.settings.authCookie]
  | .session => [.auth .optional site.settings.authCookie]
  | .purge => [.auth .admin site.settings.authCookie, .invalidate site.settings.purgePattern]
  | _ => []

variable {σ : Type} [CounterStore σ] [CacheStore σ]

def handler (site : Site) : Route → Service σ
  | .health => Handlers.health
  | .ready => Handlers.ready
  | .stats => Handlers.stats site.settings site.started
  | .me => Handlers.me
  | .session => Handlers.session
  | .purge => Handlers.purge

/-- A route with its layers. -/
def served (site : Site) (around : Surroundings) (r : Route) : Service σ :=
  Service.stacked around (site.routeLayers r) (site.handler r)

/-- Send a request to its route, if the route serves it. -/
def dispatch (site : Site) (around : Surroundings) (route : Option Route) : Service σ := fun req ↦
  match route with
  | none => return .ofStatus .notFound
  | some r =>
    if r.serves req.method then site.served around r req
    else return .ofStatus .methodNotAllowed

/-- Everything that a request to a route passes. -/
def passed (site : Site) (around : Surroundings) (route : Option Route) : Service σ :=
  Service.stacked around site.layers
    (Service.sharedWith (Origins.ofTexts site.settings.corsOrigins) (site.dispatch around route))

/-! ## Finishing responses -/

/-- Say which methods are allowed and how long the body is, unless that was said, and drop the body
where only the header fields were asked for. -/
def finished (method : Http.Method) (allowed : Option String) (response : Response) : Response :=
  let headers := match allowed with
    | none => response.headers
    | some methods => response.headers.insertMissing "allow" (utf8 methods)
  let headers := match response.body.hint.exact? with
    | none => headers
    | some n => headers.insertMissing "content-length" (utf8 n.repr)
  { response with headers, body := if method = .head then .empty else response.body }

/-- The methods that a client is told about when a route does not serve its method. -/
def allowedFor (r : Route) (method : Http.Method) : Option String :=
  if r.serves method then none else some r.allowed

def answer (site : Site) (around : Surroundings) : Service σ := fun req ↦ do
  match Route.ofPath? req.target.path with
  | some r =>
    let response ← site.passed around (some r) { req with route := some r.path }
    return finished req.method (allowedFor r req.method) response
  | none =>
    let response ← site.passed around none req
    if Text.startsWith req.target.path "/" then return response
    return finished req.method none response

end Site

end Gatehouse
