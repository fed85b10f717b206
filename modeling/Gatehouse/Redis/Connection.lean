import Gatehouse.Redis.Url
import Gatehouse.Store.Basic

/-!
# Connections

A connection is opened when it is first used, and never if it is not used. Everybody who was given
it shares it: the store and the directory of users of one program keep a single one.
-/

namespace Gatehouse.Redis

/-- A connection that may not have been opened yet. -/
structure Connection where
  /-- Which connection it is. -/
  serial : Nat
  /-- How often it was opened. -/
  opened : Nat
  deriving DecidableEq, Repr

namespace Connection

def new (serial : Nat) : Connection := ⟨serial, 0⟩

def used (c : Connection) : Connection := { c with opened := max c.opened 1 }

def sharesWith (c d : Connection) : Bool := c.serial == d.serial

/-- The connection to the server at an address, which has to be the address of one. -/
def toAddress (url : String) (serial : Nat) : Except StoreError Connection :=
  if Url.isServer url then .ok (new serial) else .error (.command "not the address of a server")

end Connection

end Gatehouse.Redis
