import Gatehouse.Base64
import Gatehouse.Digest.Sha256
import Gatehouse.Text
import Gatehouse.Time
import Gatehouse.Token.Claims
import Gatehouse.Token.KeyRecord

/-!
# Tokens

A token is a header, claims and a signature, joined by points. The first two are JSON texts in
base 64, the last is the keyed digest of the two as they stand. Whoever does not know the secret
cannot make the signature, so a token is taken at its word once its signature is right.

Checks run from the outside in: the shape, the header, the algorithm, the signature, and only then
the claims. A token with a wrong signature is therefore never reported as expired.
-/

namespace Gatehouse

namespace Token

/-- What is wrong with a token, other than that its time is over. -/
inductive Defect where
  | shape
  | base64
  | json
  | algorithm
  | signature
  | missingExpiry
  | audience
  deriving DecidableEq, Repr

def Defect.message : Defect → String
  | .shape => "InvalidToken"
  | .base64 => "Base64 error"
  | .json => "JSON error"
  | .algorithm => "InvalidAlgorithm"
  | .signature => "InvalidSignature"
  | .missingExpiry => "Missing required claim: exp"
  | .audience => "InvalidAudience"

end Token

inductive TokenError where
  | expired
  | invalid (reason : String)
  deriving DecidableEq, Repr

def TokenError.message : TokenError → String
  | .expired => "token expired"
  | .invalid reason => "invalid token: " ++ reason

namespace Token

/-- The error that a defect is. -/
def Defect.error (d : Defect) : TokenError := .invalid d.message

/-! ## Headers -/

def algorithm : String := "HS256"

/-- The algorithm of a header, if the header can be read. -/
def headerAlgorithm? (v : Json) : Option String := do
  let r ← v.record? ["typ", "alg", "cty", "jku", "jwk", "kid", "x5u", "x5c", "x5t", "x5t#S256"]
  let alg ← nameAmong? signingAlgorithms isNull (← r.field? "alg")
  let _ ← ["typ", "cty", "jku", "kid", "x5u", "x5t", "x5t#S256"].mapM fun name ↦
    Json.optional? Json.text? (r.field? name)
  let _ ← Json.optional? (Json.list? Json.text?) (r.field? "x5c")
  let _ ← Json.optional? (Option.guard isKey) (r.field? "jwk")
  return alg

/-- The header of the tokens that are issued here. -/
def header : Json := Json.object [("typ", .ofText "JWT"), ("alg", .ofText algorithm)]

/-! ## Signing -/

/-- A JSON value as a part of a token. -/
def part (v : Json) : String := Base64.urlSafe.encode v.print

def signature (secret message : String) : String :=
  Base64.urlSafe.encode (Digest.hmacSha256 (utf8 secret) (utf8 message))

/-- A message with its signature. -/
def sign (secret message : String) : String := message ++ "." ++ signature secret message

def make (secret : String) (c : Claims) : String :=
  sign secret (part header ++ "." ++ part c.toJson)

/-- The seconds that a length of time adds to the present; one that is too long for a signed
number of seconds counts as half of the longest. -/
def lifetime (ttl : Duration) : Nat :=
  if ttl.wholeSecs ≤ maxSecs then ttl.wholeSecs else maxSecs / 2

/-- The claims of a token that is issued now. -/
def issuedClaims (subject : String) (now : Instant) (ttl : Duration) : Claims :=
  { sub := subject
    exp := wrapSigned 64 (now.unixSecs + lifetime ttl)
    iat := now.unixSecs }

def issue (subject secret : String) (now : Instant) (ttl : Duration) : String :=
  make secret (issuedClaims subject now ttl)

/-! ## Validation -/

/-- The header, the claims and the signature of a token. Points in front belong to the header. -/
def split? (token : String) : Option (String × String × String) :=
  match Text.cutLast? '.' token with
  | none => none
  | some (message, signature) =>
    match Text.cutLast? '.' message with
    | none => none
    | some (header, claims) => some (header, claims, signature)

/-- The JSON value of a part. -/
def readPart (s : String) : Except Defect Json :=
  match Base64.urlSafe.decode? s with
  | none => .error .base64
  | some b =>
    match Json.parse? b with
    | none => .error .json
    | some v => .ok v

/-- The value of a part that turns out well. -/
def demand {α : Type} (d : Defect) : Option α → Except Defect α
  | none => .error d
  | some a => .ok a

/-- The claims of a token whose signature is right, and the value that they were read from. -/
def signedClaims (secret token : String) : Except Defect (Claims × Json) := do
  let (header, claims, sig) ← demand .shape (split? token)
  let alg ← demand .json (headerAlgorithm? (← readPart header))
  if alg ≠ algorithm then throw .algorithm
  if sig ≠ signature secret (header ++ "." ++ claims) then throw .signature
  let v ← readPart claims
  let c ← demand .json (Claims.ofJson? v)
  if !Claims.isCustomary v then throw .json
  return (c, v)

/-- The claims of a token, if it can be accepted now. -/
def validate (secret : String) (now : Instant) (token : String) : Except TokenError Claims :=
  match signedClaims secret token with
  | .error d => .error d.error
  | .ok (c, v) =>
    if c.exp < 0 then .error Defect.missingExpiry.error
    else if c.exp < now.unixSecs then .error .expired
    else if Claims.hasAudience v then .error Defect.audience.error
    else .ok c

end Token

end Gatehouse
