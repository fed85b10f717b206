import Gatehouse.Http.Request
import Gatehouse.Net.Network

/-!
# Who is asking

Behind a proxy the peer of a connection is the proxy, and the client's address is in a header
field that anybody can write. The field is believed if the peer is trusted, and only then;
otherwise the client is the peer itself. So a peer outside the trusted networks has one address,
whatever it writes.
-/

namespace Gatehouse

/-- The address of a client about whom nothing is known. -/
def unknownClient : String := "unknown"

def unassignedId : String := "unassigned"

/-- The first address in a list of those who forwarded a request. -/
def firstHop (s : String) : String :=
  Text.trim (String.ofList (s.toList.takeWhile (· != ',')))

/-- The address that the header fields claim the client to have. -/
def Headers.claimedClient? (h : Headers) : Option String :=
  let hop := ((h.text? "x-forwarded-for").map firstHop).filter fun s ↦ !s.isEmpty
  let real := ((h.text? "x-real-ip").map Text.trim).filter fun s ↦ !s.isEmpty
  hop.or real

def peerText (peer : Option Net.Address) : String :=
  match peer with
  | none => unknownClient
  | some a => a.text

def Request.clientIp (req : Request) (trust : Net.Trust) : String :=
  match req.headers.claimedClient? with
  | some claimed => if trust.trusts req.peer then claimed else peerText req.peer
  | none => peerText req.peer

/-- The text of a header field, empty if there is none. -/
def Headers.textOrEmpty (h : Headers) (name : String) : String := (h.text? name).getD ""

namespace Context

/-- What the log says about a request. -/
def capture (req : Request) (requestId : String) (trust : Net.Trust) : Context where
  requestId := requestId
  clientIp := req.clientIp trust
  userAgent := req.headers.textOrEmpty "user-agent"
  referrer := req.headers.textOrEmpty "referer"

/-- What has been found out about the sender, or what can be found out now. -/
def of (req : Request) : Context :=
  req.context.getD (capture req unassignedId Net.Trust.everybody)

end Context

end Gatehouse
