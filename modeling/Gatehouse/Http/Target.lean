import Gatehouse.Text

/-!
# Request targets

The target of a request is a path with an optional query. It is given as a path, as an absolute
address with scheme and authority, as an authority alone, or as a star. Only path and query are
kept; a fragment is dropped. An absolute address without a path has the path `/`, an authority
alone has the empty path.
-/

namespace Gatehouse.Http

/-- The path of a request and its query, without the question mark. -/
structure Target where
  path : String
  query : Option String
  deriving DecidableEq, Repr

namespace Target

def maxLength : Nat := 65534

/-! ## Path and query -/

/-- A character of a path: what need not be encoded, quotes and braces, and everything beyond
ASCII. -/
def isPathChar (c : Char) : Bool :=
  0x80 ≤ c.toNat || c.isAlphanum || "!\"$%&'()*+,-./:;=@[\\]^_\x7b|\x7d~".toList.contains c

/-- A character of a query: no blank, no control character, and none of the four marks that
delimit. -/
def isQueryChar (c : Char) : Bool :=
  0x21 ≤ c.toNat && c.toNat != 0x7F && !"\"#<>".toList.contains c

def withoutFragment (cs : List Char) : List Char := cs.takeWhile (· != '#')

/-- A path and, behind a question mark, a query. The empty path stands for the root. -/
def ofPathAndQuery? (cs : List Char) : Option Target :=
  let kept := withoutFragment cs
  let path := kept.takeWhile (· != '?')
  let query := kept.dropWhile (· != '?')
  if path.all isPathChar && (query.drop 1).all isQueryChar then
    some
      { path := if path.isEmpty then "/" else String.ofList path
        query := if query.isEmpty then none else some (String.ofList (query.drop 1)) }
  else none

/-! ## Authorities -/

def isAuthorityChar (c : Char) : Bool :=
  c.isAlphanum || "!$%&'()*+,-.:;=@[]_~".toList.contains c

/-- What has been seen of an authority. Colons and percent signs before an `@` belong to the user,
and those in brackets to an address, so they are forgotten there. -/
structure Seen where
  colons : Nat
  opened : Bool
  closed : Bool
  percent : Bool
  atSign : Bool

/-- See a character of an authority; `none` if it may not stand there. The flag `atSign` says
whether the character was an `@`. -/
def Seen.next? (s : Seen) (c : Char) : Option Seen :=
  if !isAuthorityChar c then none
  else
    let s := { s with atSign := c == '@' }
    if c = ':' then if s.colons < 8 then some { s with colons := s.colons + 1 } else none
    else if c = '[' then if s.percent || s.opened then none else some { s with opened := true }
    else if c = ']' then
      if !s.opened || s.closed then none
      else some { s with closed := true, colons := 0, percent := false }
    else if c = '@' then some { s with colons := 0, percent := false }
    else if c = '%' then some { s with percent := true }
    else some s

/-- Whether characters are an authority, which may be empty. -/
def isAuthority (cs : List Char) : Bool :=
  match cs.foldlM Seen.next? ⟨0, false, false, false, false⟩ with
  | none => false
  | some s => s.opened == s.closed && s.colons ≤ 1 && !s.atSign && !s.percent

def endsAuthority (c : Char) : Bool := c == '/' || c == '?' || c == '#'

/-! ## Schemes -/

/-- A character of a scheme. -/
def isSchemeChar (c : Char) : Bool := c.isAlphanum || "+-.~".toList.contains c

/-- What is left behind a scheme and `://`. -/
inductive Scheme where
  | absent
  | tooLong
  | before (rest : List Char)

def scheme (cs : List Char) : Scheme :=
  match cs.dropWhile isSchemeChar with
  | ':' :: '/' :: '/' :: rest =>
    let name := cs.takeWhile isSchemeChar
    if cs.length ≤ 3 then .absent else if 64 < name.length then .tooLong else .before rest
  | _ => .absent

/-! ## Targets -/

/-- The target that an authority alone gives. -/
def ofAuthority? (cs : List Char) : Option Target :=
  if isAuthority cs && !cs.isEmpty then some ⟨"", none⟩ else none

/-- The target of an address with or without a scheme. -/
def ofAddress? (cs : List Char) : Option Target :=
  match scheme cs with
  | .tooLong => none
  | .absent => ofAuthority? cs
  | .before rest =>
    let authority := rest.takeWhile fun c ↦ !endsAuthority c
    if isAuthority authority && !authority.isEmpty then
      ofPathAndQuery? (rest.dropWhile fun c ↦ !endsAuthority c)
    else none

def parse? (s : String) : Option Target :=
  if maxLength < s.utf8ByteSize then none
  else
    match s.toList with
    | [] => none
    | ['*'] => some ⟨"*", none⟩
    | '/' :: rest => ofPathAndQuery? ('/' :: rest)
    | cs => ofAddress? cs

end Target

end Gatehouse.Http
