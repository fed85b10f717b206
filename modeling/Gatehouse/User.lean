import Gatehouse.Json.Record
import Gatehouse.Table

/-!
# Users

A user is known by an id and has one role. A directory finds users by id; looking one up can fail
because there is no such user, because the record cannot be read, or because the directory does
not answer.
-/

namespace Gatehouse

structure User where
  id : String
  email : String
  name : String
  role : String
  deriving DecidableEq, Repr

namespace User

/-- The role that may do everything. -/
def adminRole : String := "admin"

/-- Whether the user has the role that may do everything. -/
def isAdmin (u : User) : Bool := u.role == adminRole

def toJson (u : User) : Json :=
  Json.object [("id", .ofText u.id), ("email", .ofText u.email), ("name", .ofText u.name),
    ("role", .ofText u.role)]

/-- Read a record; a missing name is empty. -/
def ofJson? (v : Json) : Option User := do
  let r ← v.record? ["id", "email", "name", "role"]
  let id ← (← r.field? "id").text?
  let email ← (← r.field? "email").text?
  let name ← match r.field? "name" with
    | none => some ""
    | some v => v.text?
  let role ← (← r.field? "role").text?
  return { id, email, name, role }

def parse? (b : Bytes) : Option User := (Json.parse? b).bind ofJson?

end User

/-! ## Looking users up -/

inductive LookupError where
  | notFound (id : String)
  | malformed (id : String) (reason : String)
  | backend (reason : String)
  deriving DecidableEq, Repr

def LookupError.message : LookupError → String
  | .notFound id => "user " ++ id ++ " not found"
  | .malformed id reason => "user record for " ++ id ++ " is malformed: " ++ reason
  | .backend reason => "user directory unavailable: " ++ reason

abbrev Directory := Table String User

namespace Directory

/-- The directory of some users; of equal ids the last one counts. -/
def ofUsers (users : List User) : Directory := Table.ofList (users.map fun u ↦ (u.id, u))

def enter (d : Directory) (u : User) : Directory := d.insert u.id u

def get (d : Directory) (id : String) : Except LookupError User :=
  match d.find? id with
  | none => .error (.notFound id)
  | some u => .ok u

/-- The key under which a shared store keeps the record of a user. -/
def recordKey (id : String) : String := "user:" ++ id

end Directory

end Gatehouse
