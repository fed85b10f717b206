import Gatehouse.Body

/-!
# Bodies that are waited for

A question for a frame may come back without an answer: the handler has no frame yet, or the store
has not said what has become of a copy that it was given. What was begun goes on meanwhile, and the
client asks again, or drops the body.

With each question comes the number of things that need not be waited for. They are waited for from
the inside out: first the frame, then the writes of the copies that the end of the body sets off. A
copy is handed to the store in the very question in which its body has no more frames, and from then
on the body is not asked again until the store has answered; so a client that gives up waiting there
has not been told the end of a body whose copy is stored all the same.

A `Body` is asked without such interruptions.
-/

namespace Gatehouse

open Cache

namespace Cache

/-- How far the copy of a body has come. -/
inductive Copy where
  | growing (c : Capture)
  /-- The store was called, and has not answered. -/
  | writing (c : Capture)
  /-- The copy was written, or given up. -/
  | gone
  deriving DecidableEq

def Copy.ofCapture : Option Capture → Copy
  | some c => growing c
  | none => gone

/-- What becomes of a copy when its body hands out a frame. -/
def Capture.follow {σ : Type} (c : Capture) : Frame → Run σ (Option Capture)
  | .data data => c.record data
  | .trailers _ => return some c
  | .failure _ => return none

end Cache

/-- A body that is waited for. -/
inductive Flow where
  /-- A body without copies. -/
  | plain (b : Body)
  | copied (inner : Flow) (copy : Copy)
  deriving DecidableEq

/-- The same body, waited for. -/
def Body.flow : Body → Flow
  | copied inner copy => .copied inner.flow (.ofCapture copy)
  | b => .plain b

namespace Flow

def isEnded : Flow → Bool
  | plain b => b.isEnded
  | copied inner .gone => inner.isEnded
  | copied _ _ => false

variable {σ : Type}

/-- Wait until a copy is written, and then tell the end. -/
def await [CacheStore σ] (inner : Flow) (c : Capture) :
    Nat → Run σ (Option (Option Frame × Nat) × Flow)
  | 0 => return (none, copied inner (.writing c))
  | n + 1 => do
    c.settle
    return (some (none, n), copied inner .gone)

/-- Ask for a frame, where the given number of things need not be waited for. An answer comes with
how many of them are left. -/
def ask [CacheStore σ] : Flow → Nat → Run σ (Option (Option Frame × Nat) × Flow)
  | plain b, 0 => return (none, plain b)
  | plain b, n + 1 => do
    let (frame, b) ← b.poll
    return (some (frame, n), plain b)
  | copied inner (.growing c), n => do
    match ← inner.ask n with
    | (none, inner) => return (none, copied inner (.growing c))
    | (some (none, n), inner) =>
      c.submit
      await inner c n
    | (some (some frame, n), inner) =>
      return (some (some frame, n), copied inner (.ofCapture (← c.follow frame)))
  | copied inner (.writing c), n => await inner c n
  | copied inner .gone, n => do
    let (answer, inner) ← inner.ask n
    return (answer, copied inner .gone)

/-- Drop a body. A write that the store was called for is finished; a copy that grows is stored if
the body was known to have ended. -/
def discard [CacheStore σ] : Flow → Run σ Unit
  | plain b => b.discard
  | copied inner (.growing c) => do
    if inner.isEnded then c.finish
    inner.discard
  | copied inner (.writing c) => do
    c.settle
    inner.discard
  | copied inner .gone => inner.discard

end Flow

end Gatehouse
