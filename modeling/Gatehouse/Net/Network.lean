import Gatehouse.Net.Address

/-!
# Networks

A network is an address with the number of leading bits that count. Bits behind them are kept as
they were given and masked out of every comparison. A list of networks says which peers are trusted
to name the client they speak for; the empty list trusts everybody.
-/

namespace Gatehouse.Net

/-! ## Masks -/

/-- A word shifted to the left. A shift by as many bits as the word has, or by more, is none. -/
def shifted? {w : Nat} (x : BitVec w) (n : Nat) : Option (BitVec w) :=
  if n < w then some (x <<< n) else none

/-- The mask of the first `length` of `w` bits. Where the shift is none, no bit counts. -/
def mask (w length : Nat) : BitVec w := (shifted? (BitVec.allOnes w) (w - length)).getD 0

/-- Whether two words agree under a mask. -/
def agree {w : Nat} (length : Nat) (x y : BitVec w) : Bool :=
  x &&& mask w length == y &&& mask w length

/-! ## Networks -/

/-- An address of which only the first bits count. -/
structure Network where
  address : Address
  length : Nat
  length_le : length ≤ address.width
  deriving DecidableEq, Repr

namespace Network

/-- The network of an address and a number of bits, if the address has as many. -/
def ofAddress? (a : Address) (length : Nat) : Option Network :=
  if h : length ≤ a.width then some ⟨a, length, h⟩ else none

/-- Read an address and, behind a slash, the number of bits that count; without a slash all of
them do. -/
def parse? (s : String) : Option Network :=
  let trimmed := Text.trim s
  match Text.cut? '/' trimmed with
  | none => (Address.parse? trimmed).bind fun a ↦ ofAddress? a a.width
  | some (address, length) =>
    match Address.parse? address, Text.readWord 8 length with
    | some a, .ok n => ofAddress? a n
    | _, _ => none

/-- Whether an address is of the network's family and agrees with it in the bits that count. -/
def contains (n : Network) : Address → Bool
  | .v4 x =>
    match n.address with
    | .v4 y => agree n.length x y
    | .v6 _ => false
  | .v6 x =>
    match n.address with
    | .v6 y => agree n.length x y
    | .v4 _ => false

end Network

/-! ## Trust -/

/-- The peers whose word about a client is taken. -/
structure Trust where
  networks : List Network

namespace Trust

def everybody : Trust := ⟨[]⟩

/-- The networks among some texts. -/
def ofTexts (texts : List String) : Trust := ⟨texts.filterMap Network.parse?⟩

/-- The texts that are no networks. -/
def rejected (texts : List String) : List String :=
  texts.filter fun s ↦ (Network.parse? s).isNone

def isLimited (t : Trust) : Bool := !t.networks.isEmpty

/-- Whether a peer is trusted; an unknown one is so only if everybody is. -/
def trusts (t : Trust) (peer : Option Address) : Bool :=
  t.networks.isEmpty ||
    match peer with
    | none => false
    | some a => t.networks.any fun n ↦ n.contains a

end Trust

end Gatehouse.Net
