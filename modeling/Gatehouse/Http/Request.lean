import Gatehouse.Http.Headers
import Gatehouse.Http.Target
import Gatehouse.Net.Address
import Gatehouse.User

/-!
# Requests

A request on its way to its handler. Besides what the client sent it holds what has been found out
about it so far: the peer it came from, the route it goes to, who is asking and from where. The
body is not among it, since no handler reads one.
-/

namespace Gatehouse

namespace Http

structure Method where
  name : String
  isToken : Http.isToken name = true
  deriving DecidableEq, Repr

namespace Method

def parse? (s : String) : Option Method := if h : Http.isToken s = true then some ⟨s, h⟩ else none

def get : Method := ⟨"GET", by decide⟩

def head : Method := ⟨"HEAD", by decide⟩

def post : Method := ⟨"POST", by decide⟩

def options : Method := ⟨"OPTIONS", by decide⟩

end Method

end Http

/-- What the log says about the sender of a request. -/
structure Context where
  requestId : String
  clientIp : String
  userAgent : String
  referrer : String
  deriving DecidableEq, Repr

/-- A request, with what has been found out about it. -/
structure Request where
  method : Http.Method
  target : Http.Target
  headers : Headers
  /-- The address of the other end of the connection. -/
  peer : Option Net.Address
  /-- The path by which the router knows the route that was found. -/
  route : Option String
  context : Option Context
  user : Option User

end Gatehouse
