/-!
# Status codes

A status is a number from 100 to 999. Below 400 the request succeeded, below 500 it failed by the
client's doing, and from 500 on by the server's.
-/

namespace Gatehouse.Http

structure Status where
  code : Nat
  valid : 100 ≤ code ∧ code ≤ 999
  deriving DecidableEq, Repr

/-- How a request ended. -/
inductive Outcome where
  | success
  | fail
  | error
  deriving DecidableEq, Repr

def Outcome.name : Outcome → String
  | .success => "success"
  | .fail => "fail"
  | .error => "error"

namespace Status

def ofNat? (n : Nat) : Option Status := if h : 100 ≤ n ∧ n ≤ 999 then some ⟨n, h⟩ else none

def ok : Status := ⟨200, by decide⟩

def noContent : Status := ⟨204, by decide⟩

def unauthorized : Status := ⟨401, by decide⟩

def forbidden : Status := ⟨403, by decide⟩

def notFound : Status := ⟨404, by decide⟩

def methodNotAllowed : Status := ⟨405, by decide⟩

def tooManyRequests : Status := ⟨429, by decide⟩

def internalError : Status := ⟨500, by decide⟩

def serviceUnavailable : Status := ⟨503, by decide⟩

def isServerError (s : Status) : Bool := 500 ≤ s.code && s.code < 600

/-- How a request with this status ended. -/
def outcome (s : Status) : Outcome :=
  if s.code < 400 then .success else if s.code < 500 then .fail else .error

end Status

end Gatehouse.Http
