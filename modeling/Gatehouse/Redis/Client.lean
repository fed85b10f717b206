import Gatehouse.Redis.Exchange
import Gatehouse.Store.Basic
import Gatehouse.User

/-!
# Store operations as exchanges

Every operation of a store is an exchange with a server. Counting is one transaction, so that a
counter is never left without an expiry. Deleting by pattern goes through the keys page by page,
deletes the keys of a page before it asks for the next one, and ends with the page whose cursor is
zero; its recursion is on the replies.
-/

namespace Gatehouse.Redis

/-- The expiry that is sent for a length of time: whole seconds, at least one. -/
def expirySecs (d : Duration) : Nat := min (max d.wholeSecs 1) maxSecs

/-- The command that sees to the expiry of a counter. -/
def expire (key : String) (window : Duration) (policy : ExpiryPolicy) : Command :=
  command <| ["EXPIRE", key, (expirySecs window).repr] ++
    match policy with
    | .rolling => []
    | .fixed => ["NX"]

/-- Add one to a counter and see to its expiry. -/
def increment (key : String) (window : Duration) (policy : ExpiryPolicy) :
    List Reply → Exchange Nat :=
  ask [command ["MULTI"], command ["INCRBY", key, "1"], expire key window policy,
    command ["EXEC"]] Reply.transactionCount?

/-- The time that is left where a server counts seconds; there is none for a key that does not
exist or does not expire. -/
def timeLeft? (secs : Int) : Option Duration :=
  if 0 < secs then some (Duration.ofSecs secs.toNat) else none

def ttl (key : String) (replies : List Reply) : Exchange (Option Duration) :=
  (ask [command ["TTL", key]] Reply.signed? replies).map timeLeft?

def get (key : String) : List Reply → Exchange (Option Bytes) :=
  ask [command ["GET", key]] Reply.octets?

def set (key : String) (value : Bytes) (ttl : Duration) : List Reply → Exchange Unit :=
  ask [[utf8 "SETEX", utf8 key, utf8 (expirySecs ttl).repr, value]] fun _ ↦ some ()

def ping (replies : List Reply) : Exchange Unit :=
  (ask [command ["PING"]] Reply.text? replies).map fun _ ↦ ()

/-! ## Deleting by pattern -/

def pageSize : Nat := 500

def scan (cursor : Nat) (pattern : String) : Command :=
  command ["SCAN", cursor.repr, "MATCH", pattern, "COUNT", pageSize.repr]

def del (keys : List String) : Command := command ("DEL" :: keys)

/-- A number in a word of 64 bits. -/
def wrapped (n : Nat) : Nat := n % wordSize 64

/-- Delete the keys that match a pattern from a cursor on; `deleted` have been deleted before. -/
def deleteFrom (pattern : String) (cursor deleted : Nat) : List Reply → Exchange Nat
  | [] => ⟨[scan cursor pattern], .error .closed, []⟩
  | [page] =>
    match understood Reply.page? page with
    | .error e => ⟨[scan cursor pattern], .error e, []⟩
    | .ok (next, []) =>
      if next = 0 then ⟨[scan cursor pattern], .ok deleted, []⟩
      else (deleteFrom pattern next deleted []).after [scan cursor pattern]
    | .ok (_, keys) => ⟨[scan cursor pattern, del keys], .error .closed, []⟩
  | page :: count :: rest =>
    match understood Reply.page? page with
    | .error e => ⟨[scan cursor pattern], .error e, count :: rest⟩
    | .ok (next, []) =>
      if next = 0 then ⟨[scan cursor pattern], .ok deleted, count :: rest⟩
      else (deleteFrom pattern next deleted (count :: rest)).after [scan cursor pattern]
    | .ok (next, keys) =>
      match understood (Reply.word? 64) count with
      | .error e => ⟨[scan cursor pattern, del keys], .error e, rest⟩
      | .ok n =>
        if next = 0 then ⟨[scan cursor pattern, del keys], .ok (wrapped (deleted + n)), rest⟩
        else
          (deleteFrom pattern next (wrapped (deleted + n)) rest).after
            [scan cursor pattern, del keys]

/-- Delete the keys that match a pattern; the answer is how many existed. -/
def deleteByPattern (pattern : String) : List Reply → Exchange Nat := deleteFrom pattern 0 0

/-! ## Users -/

/-- The user whose record a server holds under an id. -/
def userOf (id : String) (outcome : Except ExchangeError (Option String)) :
    Except LookupError User :=
  match outcome with
  | .error e => .error (.backend e.message)
  | .ok none => .error (.notFound id)
  | .ok (some record) =>
    match User.parse? (utf8 record) with
    | none => .error (.malformed id "the record cannot be read")
    | some u => .ok u

/-- What was found when a user was looked up. -/
structure Lookup where
  exchange : Exchange (Option String)
  user : Except LookupError User

def lookup (id : String) (replies : List Reply) : Lookup :=
  let exchange := ask [command ["GET", Directory.recordKey id]] Reply.optionalText? replies
  ⟨exchange, userOf id exchange.outcome⟩

end Gatehouse.Redis
