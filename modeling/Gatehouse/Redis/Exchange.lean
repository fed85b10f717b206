import Gatehouse.Redis.Reply
import Gatehouse.Store.Basic

/-!
# Exchanges with a server

An operation sends commands and reads replies in turn. Given all replies that the server will
make, in their order, an exchange is what the operation sent, what came of it, and the replies it
left unread. No clock and no connection take part, so what is sent depends on the replies alone.
-/

namespace Gatehouse.Redis

abbrev Command := List Bytes

def command (words : List String) : Command := words.map utf8

/-- Why an operation failed: the server said so, its reply made no sense, or it made none. -/
inductive ExchangeError where
  | refused (text : String)
  | unexpected
  | closed
  deriving DecidableEq, Repr

def ExchangeError.message : ExchangeError → String
  | .refused text => text
  | .unexpected => "unexpected reply"
  | .closed => "connection closed"

/-- What a store says about an operation that failed. -/
def ExchangeError.storeError (e : ExchangeError) : StoreError := .command e.message

/-- What an operation sent, what came of it, and the replies that it left unread. -/
structure Exchange (α : Type) where
  sent : List Command
  outcome : Except ExchangeError α
  unread : List Reply

namespace Exchange

variable {α β : Type}

/-- An exchange that went before sends its commands first. -/
def after (sent : List Command) (x : Exchange α) : Exchange α := { x with sent := sent ++ x.sent }

/-- Go on with what came of an exchange. -/
def bind (x : Exchange α) (next : α → List Reply → Exchange β) : Exchange β :=
  match x.outcome with
  | .error e => ⟨x.sent, .error e, x.unread⟩
  | .ok a => (next a x.unread).after x.sent

/-- The same exchange with another value. -/
def map (f : α → β) (x : Exchange α) : Exchange β := ⟨x.sent, x.outcome.map f, x.unread⟩

end Exchange

/-- What a reply says to somebody who asked for an `α`. -/
def understood {α : Type} (read? : Reply → Option α) (r : Reply) : Except ExchangeError α :=
  match r.error? with
  | some text => .error (.refused text)
  | none =>
    match read? r with
    | none => .error .unexpected
    | some a => .ok a

/-- Send commands in one round trip and read the reply. -/
def ask {α : Type} (commands : List Command) (read? : Reply → Option α) :
    List Reply → Exchange α
  | [] => ⟨commands, .error .closed, []⟩
  | r :: rest => ⟨commands, understood read? r, rest⟩

end Gatehouse.Redis
