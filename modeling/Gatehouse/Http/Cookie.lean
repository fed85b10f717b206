import Gatehouse.Http.Headers
import Gatehouse.Text.Percent

/-!
# Cookies

A request brings its cookies in any number of fields, several in one field. Each is a name and a
value around the first equals sign, trimmed and percent-decoded; a piece that is no cookie is
skipped. Of cookies with equal names the last one counts.
-/

namespace Gatehouse.Http

structure Cookie where
  name : String
  value : String
  deriving DecidableEq, Repr

def Cookie.parse? (piece : String) : Option Cookie :=
  match Text.cut? '=' piece with
  | none => none
  | some (name, value) =>
    let name := Text.trim name
    if name.isEmpty then none
    else
      match Text.percentDecode? name, Text.percentDecode? (Text.trim value) with
      | some name, some value => some ⟨name, value⟩
      | _, _ => none

end Http

namespace Headers

def cookies (h : Headers) : List Http.Cookie :=
  (h.values "cookie").flatMap fun value ↦
    match Http.textOf? value with
    | none => []
    | some text => (Text.pieces ';' text).filterMap Http.Cookie.parse?

/-- The value of the last cookie with the given name. -/
def cookie? (h : Headers) (name : String) : Option String :=
  (h.cookies.reverse.find? fun c ↦ c.name == name).map Http.Cookie.value

end Headers

end Gatehouse
