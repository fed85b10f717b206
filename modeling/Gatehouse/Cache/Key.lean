import Gatehouse.Digest.Sha256

/-!
# Keys of cached responses

A response is stored under the digest of what it answers: the method, the path, the query and,
once somebody is known to ask, the user. The parts are joined by colons, so two requests have the
same key only if their joined parts are the same text.
-/

namespace Gatehouse.Cache

/-- The text that is digested. -/
def preimage (method path query : String) (subject : Option String) : Bytes :=
  let asked := utf8 (method ++ ":" ++ path ++ ":" ++ query)
  match subject with
  | none => asked
  | some id => asked ++ utf8 (":user:" ++ id)

/-- The key of a response. -/
def key (space method path query : String) (subject : Option String) : String :=
  space ++ hex (Digest.sha256 (preimage method path query subject))

end Gatehouse.Cache
