import Gatehouse.Bytes
import Gatehouse.Text.Decimal
import Gatehouse.Time

/-!
# Replies of a server

A server answers with integers, texts, octet strings, errors, nothing, or arrays of such. What an
operation makes of a reply depends on what it asked for: a number may come as an integer or as a
numeral, a list of texts as an array, as a single octet string or as nothing. An integer that does
not fit the word that is asked for loses its high bits.

An error anywhere in a reply makes the whole reply an error.
-/

namespace Gatehouse.Redis

inductive Reply where
  | nil
  | int (n : Int)
  | simple (text : String)
  | error (text : String)
  | bulk (b : Bytes)
  | array (items : List Reply)
  deriving Inhabited, Repr

namespace Reply

mutual

def error? : Reply → Option String
  | .error text => some text
  | .array items => errorAmong? items
  | _ => none

def errorAmong? : List Reply → Option String
  | [] => none
  | r :: rest => (error? r).or (errorAmong? rest)

end

/-- The value of a successful reading. -/
def ofReading {α : Type} : Except Text.NumeralError α → Option α
  | .ok a => some a
  | .error _ => none

def text? : Reply → Option String
  | .int n => some n.repr
  | .simple text => some text
  | .bulk b => ofUtf8? b
  | _ => none

/-- The number of a reply, in a word of `bits` bits. -/
def word? (bits : Nat) : Reply → Option Nat
  | .int n => some (n % wordSize bits).toNat
  | .simple text => ofReading (Text.readWord bits text)
  | .bulk b => (ofUtf8? b).bind fun text ↦ ofReading (Text.readWord bits text)
  | _ => none

/-- The signed number of a reply, in a word of 64 bits. -/
def signed? : Reply → Option Int
  | .int n => some (wrapSigned 64 n)
  | .simple text => ofReading (Text.readSigned 64 text)
  | .bulk b => (ofUtf8? b).bind fun text ↦ ofReading (Text.readSigned 64 text)
  | _ => none

/-- The octets of a reply, if it is a value at all. -/
def octets? : Reply → Option (Option Bytes)
  | .nil => some none
  | .bulk b => some (some b)
  | .array items => (items.mapM (word? 8)).map fun ns ↦ some (ns.map UInt8.ofNat)
  | _ => none

/-- The text of a reply, if it is a value at all. -/
def optionalText? : Reply → Option (Option String)
  | .nil => some none
  | r => r.text?.map some

def texts? : Reply → Option (List String)
  | .nil => some []
  | .bulk b => (ofUtf8? b).map fun text ↦ [text]
  | .array items => items.mapM text?
  | _ => none

/-- The cursor and the keys of a page of keys. -/
def page? : Reply → Option (Nat × List String)
  | .array [cursor, keys] =>
    match cursor.word? 64, keys.texts? with
    | some cursor, some keys => some (cursor, keys)
    | _, _ => none
  | _ => none

/-- The count that a transaction replies which increments a counter and then sees to its expiry.
What is replied to the second command does not matter. -/
def transactionCount? : Reply → Option Nat
  | .array (count :: rest) => if (rest.drop 1).isEmpty then count.word? 64 else none
  | _ => none

end Reply

end Gatehouse.Redis
