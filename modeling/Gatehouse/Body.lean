import Gatehouse.Cache.Capture

/-!
# Response bodies

A body is asked for one frame after the other until it has no more, or is dropped before. Some
bodies are one buffer, whose length and end are known at once; others hand out frames, say of their
length what they like, and announce their end or are known to have ended only when asked for a
frame that they do not have. None announces its end before its last frame.

A body can carry a copy of itself. It hands out the same frames, and the copy is stored when the
end is reached, before the client learns of it; or when the body is dropped at a point where the
end was known already.

Here a question is answered before anything else happens. A client that does not wait for the answer
asks a `Flow`, which is the same body while the answers to the questions are on their way.
-/

namespace Gatehouse

/-- What a body hands out. -/
inductive Frame where
  | data (b : Bytes)
  | trailers (h : Headers)
  /-- The body fails. -/
  | failure (reason : String)
  deriving DecidableEq, Repr

def Frame.octets : Frame → Bytes
  | data b => b
  | _ => []

/-- What is known of the length of a body before it is read. -/
structure SizeHint where
  lower : Nat
  upper : Option Nat
  deriving DecidableEq, Repr

/-- The hint of a length that is known. -/
def SizeHint.exact (n : Nat) : SizeHint := ⟨n, some n⟩

/-- The length that a hint knows. -/
def SizeHint.exact? (h : SizeHint) : Option Nat := h.upper.filter fun n ↦ n == h.lower

inductive Body where
  /-- One buffer; the empty buffer has no frame. -/
  | full (data : Bytes)
  /-- Frames, what is said of their length, and whether the end is announced. -/
  | framed (frames : List Frame) (said : SizeHint) (announced : Bool)
  /-- A body with a copy of itself, unless the copy was given up or stored. -/
  | copied (inner : Body) (copy : Option Cache.Capture)
  deriving DecidableEq

namespace Body

def empty : Body := full []

/-- Frames of which a lower bound of the length is known, and whose end is not announced. -/
def streamed (frames : List Frame) (lower : Nat) : Body := framed frames ⟨lower, none⟩ false

/-- What is known of the length of a body. -/
def hint : Body → SizeHint
  | full data => .exact data.length
  | framed _ said _ => said
  | copied inner _ => inner.hint

/-- Whether a body is known to have ended. -/
def isEnded : Body → Bool
  | full data => data.isEmpty
  | framed frames _ announced => announced && frames.isEmpty
  | copied inner copy => copy.isNone && inner.isEnded

/-- The frames that a body will hand out. -/
def frames : Body → List Frame
  | full data => if data.isEmpty then [] else [.data data]
  | framed frames _ _ => frames
  | copied inner _ => inner.frames

variable {σ : Type}

/-- Ask a body for a frame. -/
def poll [CacheStore σ] : Body → Run σ (Option Frame × Body)
  | full [] => return (none, full [])
  | full (b :: more) => return (some (.data (b :: more)), full [])
  | framed [] said announced => return (none, framed [] said announced)
  | framed (f :: rest) said announced => return (some f, framed rest said announced)
  | copied inner copy => do
    let (frame, inner) ← inner.poll
    match frame, copy with
    | some (.data data), some c => return (frame, copied inner (← c.record data))
    | some (.failure _), _ => return (frame, copied inner none)
    | none, some c => do
      c.finish
      return (none, copied inner none)
    | _, copy => return (frame, copied inner copy)

/-- Drop a body. A copy is stored if the body was known to have ended. -/
def discard [CacheStore σ] : Body → Run σ Unit
  | copied inner (some c) => do
    if inner.isEnded then c.finish
    inner.discard
  | copied inner none => inner.discard
  | _ => return ()

/-! ## Reading -/

inductive Ending where
  | finished
  | failed (reason : String)
  | dropped
  deriving DecidableEq, Repr

structure Reading where
  frames : List Frame
  ending : Ending
  deriving DecidableEq, Repr

namespace Reading

def data (r : Reading) : Bytes := r.frames.flatMap Frame.octets

/-- The last trailers that were read. -/
def trailers? (r : Reading) : Option Headers :=
  (r.frames.filterMap fun f ↦
    match f with
    | .trailers h => some h
    | _ => none).getLast?

end Reading

/-- Ask a body for up to a number of frames. -/
def readFrames [CacheStore σ] : Nat → Body → Run σ (Reading × Body)
  | 0, body => return (⟨[], .dropped⟩, body)
  | n + 1, body => do
    let (frame, body) ← body.poll
    match frame with
    | none => return (⟨[], .finished⟩, body)
    | some (.failure reason) => return (⟨[], .failed reason⟩, body)
    | some f =>
      let (r, body) ← readFrames n body
      return (⟨f :: r.frames, r.ending⟩, body)

/-- Read a body to its end, or up to a number of frames, and drop it. -/
def read [CacheStore σ] (limit : Option Nat) (body : Body) : Run σ Reading := do
  let (r, rest) ← readFrames (limit.getD (body.frames.length + 1)) body
  rest.discard
  return r

end Body

end Gatehouse
