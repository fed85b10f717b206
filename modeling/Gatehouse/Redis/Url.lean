import Gatehouse.Net.Address
import Gatehouse.Text
import Gatehouse.Text.Decimal
import Gatehouse.Text.Percent

/-!
# Addresses of servers

A server is addressed by `redis://`, optional credentials, a host, an optional port and the
optional number of a database; or by `unix://` and the path of a socket, where the number of the
database is in the query. In both, the query may name the version of the protocol.
-/

namespace Gatehouse.Redis.Url

/-- The schemes of servers that are reached over a network. -/
def networkSchemes : List String := ["redis", "valkey"]

/-- The schemes of servers that are reached through a socket in the file system. -/
def socketSchemes : List String := ["unix", "redis+unix", "valkey+unix"]

/-- Control characters and the blank. -/
def isTrimmed (c : Char) : Bool := c.toNat ≤ 0x20

/-- The characters of an address: without blanks at its ends, and without tabs and line ends. -/
def cleaned (s : String) : List Char :=
  let inner := ((s.toList.dropWhile isTrimmed).reverse.dropWhile isTrimmed).reverse
  inner.filter fun c ↦ !"\t\n\r".toList.contains c

def isSchemeChar (c : Char) : Bool := c.isAlphanum || c == '+' || c == '-' || c == '.'

/-- The scheme, in small letters, and what stands behind its colon. -/
def scheme? (cs : List Char) : Option (String × List Char) :=
  match cs with
  | [] => none
  | c :: _ =>
    match cs.dropWhile isSchemeChar with
    | ':' :: rest =>
      if c.isAlpha then some (Text.lower (String.ofList (cs.takeWhile isSchemeChar)), rest)
      else none
    | _ => none

/-! ## Authorities -/

def endsAuthority (c : Char) : Bool := c == '/' || c == '?' || c == '#'

/-- What stands in front of the last `@`, if there is one, and what behind it. -/
def cutAtUser (cs : List Char) : Option (List Char) × List Char :=
  let server := (cs.reverse.takeWhile (· != '@')).reverse
  match cs.reverse.dropWhile (· != '@') with
  | [] => (none, server)
  | _ :: credentials => (some credentials.reverse, server)

def isForbidden (c : Char) : Bool :=
  c.toNat == 0 || "\t\n\r #/:<>?@[\\]^|".toList.contains c

/-- What stands behind a colon and a port, which may be left out: nothing, or a path that begins
with a backslash. -/
def behindPort? : List Char → Option (List Char)
  | [] => some []
  | ':' :: rest =>
    let digits := rest.takeWhile Char.isDigit
    let behind := rest.dropWhile Char.isDigit
    if (digits.isEmpty || Net.isDecimalUpTo 65535 digits) &&
        (behind.isEmpty || behind.head? == some '\\') then
      some behind
    else none
  | _ => none

/-- The host of an authority without credentials, and what stands behind its port. An empty host
has no port. -/
def host? (cs : List Char) : Option (List Char × List Char) :=
  match cs with
  | '[' :: rest =>
    let address := rest.takeWhile (· != ']')
    if (Net.v6Groups? address).isSome && rest.contains ']' then
      (behindPort? ((rest.dropWhile (· != ']')).drop 1)).map fun behind ↦ (address, behind)
    else none
  | _ =>
    let host := cs.takeWhile (· != ':')
    let port := cs.dropWhile (· != ':')
    if host.any isForbidden || host.isEmpty && !port.isEmpty then none
    else (behindPort? port).map fun behind ↦ (host, behind)

/-! ## What stands behind an authority -/

/-- An address behind its scheme. -/
structure Parts where
  credentials : Option (List Char)
  host : List Char
  path : List Char
  query : List Char

def pathOf (cs : List Char) : List Char := cs.takeWhile fun c ↦ c != '?' && c != '#'

/-- The path that begins behind a port, or at the end of an authority. -/
def wholePath (behindPort path : List Char) : List Char :=
  if behindPort.isEmpty then path else '/' :: behindPort ++ path

def queryOf (cs : List Char) : List Char :=
  match (cs.takeWhile (· != '#')).dropWhile (· != '?') with
  | [] => []
  | _ :: query => query

/-- Whether credentials may stand in front of a host: in front of an empty one only the colon
between an empty name and an empty password. -/
def mayPrecede (host : List Char) : Option (List Char) → Bool
  | none => true
  | some credentials => !host.isEmpty || credentials == [':']

/-- The parts of an address behind its scheme. -/
def parts? (cs : List Char) : Option Parts :=
  match cs with
  | '/' :: '/' :: rest =>
    let (credentials, server) := cutAtUser (rest.takeWhile fun c ↦ !endsAuthority c)
    let behind := rest.dropWhile fun c ↦ !endsAuthority c
    match host? server with
    | none => none
    | some (host, behindPort) =>
      if mayPrecede host credentials then
        some ⟨credentials, host, wholePath behindPort (pathOf behind), queryOf behind⟩
      else none
  | _ => some ⟨none, [], pathOf cs, queryOf cs⟩

/-- The last value that the query gives a name. -/
def Parts.value? (p : Parts) (name : String) : Option String :=
  Text.queryValue? (String.ofList p.query) name

/-- A version of the protocol, or nothing. -/
def isProtocol : Option String → Bool
  | none => true
  | some name => ["2", "resp2", "3", "resp3"].contains name

def isDatabase (s : String) : Bool :=
  match Text.readSigned 64 s with
  | .ok _ => true
  | .error _ => false

/-- The number of dots that a segment of a path consists of; a dot may be encoded. -/
def dots? : List Char → Option Nat
  | [] => some 0
  | '.' :: rest => (dots? rest).map (· + 1)
  | '%' :: '2' :: 'e' :: rest => (dots? rest).map (· + 1)
  | '%' :: '2' :: 'E' :: rest => (dots? rest).map (· + 1)
  | _ => none

/-- A letter and a colon or a bar, alone or in front of a backslash: a segment that names a drive
is never left for the one above it. -/
def isDrive : List Char → Bool
  | letter :: mark :: rest =>
    letter.isAlpha && (mark == ':' || mark == '|') && (rest.isEmpty || rest.head? == some '\\')
  | _ => false

/-- The segments without the last one. -/
def parent (kept : List (List Char)) : List (List Char) :=
  match kept.getLast? with
  | none => []
  | some last => if isDrive last then kept else kept.dropLast

/-- Go on by a segment: one dot stays, two dots go back. -/
def descend (kept : List (List Char)) (segment : List Char) : List (List Char) :=
  match dots? segment with
  | some 1 => kept
  | some 2 => parent kept
  | _ => kept ++ [segment]

/-- The path without its steps that stay or go back, and without its first slash. -/
def resolved (path : List Char) : List Char :=
  let segments := (path.drop 1).splitOn '/'
  ['/'].intercalate (segments.foldl descend [])

/-- The characters without slashes at both ends. -/
def withoutSlashes (cs : List Char) : List Char :=
  ((cs.dropWhile (· == '/')).reverse.dropWhile (· == '/')).reverse

/-- The address of a server that is reached over a network. -/
def Parts.isNetworkServer (p : Parts) : Bool :=
  let database := String.ofList (withoutSlashes (resolved p.path))
  !p.host.isEmpty && (Text.percentDecode? (String.ofList (p.credentials.getD []))).isSome &&
    (database.isEmpty || isDatabase database) && isProtocol (p.value? "protocol")

/-- The address of a socket: an absolute path on this machine. -/
def Parts.isSocket (p : Parts) : Bool :=
  (p.host.isEmpty || p.host == "localhost".toList) && p.path.head? == some '/' &&
    (p.value? "db").all isDatabase && isProtocol (p.value? "protocol")

def isServer (s : String) : Bool :=
  match scheme? (cleaned s) with
  | none => false
  | some (scheme, rest) =>
    match parts? rest with
    | none => false
    | some parts =>
      if networkSchemes.contains scheme then parts.isNetworkServer
      else socketSchemes.contains scheme && parts.isSocket

end Gatehouse.Redis.Url
