import Gatehouse.Word

/-!
# Time

Time is counted in whole nanoseconds. An instant is the distance from the first second of 1970;
clocks that only ever move forward and wall clocks share this one scale, because nothing here
sets a clock back.

Counters and tokens speak of whole seconds. Two roundings are in use and both are named:
`wholeSecs` cuts a remainder off, `ceilSecs` counts it as a further second.

## The end of the clock

Lengths of time know no bound, but a clock has a last instant. Nothing is ever noted for a later
one: whoever has to do so, for a window that is too long, ends the program there and then. So what
asks the clock for an instant ahead, by `Instant.plus?`, may have no result.
-/

namespace Gatehouse

/-- A length of time in nanoseconds. -/
abbrev Duration := Nat

/-- A point of time, in nanoseconds since 1970-01-01T00:00:00Z. -/
abbrev Instant := Nat

def nanosPerMilli : Nat := 1000000

def nanosPerSec : Nat := 1000000000

namespace Duration

def ofMillis (n : Nat) : Duration := n * nanosPerMilli

def ofSecs (n : Nat) : Duration := n * nanosPerSec

def wholeMillis (d : Duration) : Nat := d / nanosPerMilli

def wholeSecs (d : Duration) : Nat := d / nanosPerSec

/-- The seconds of a length of time, a part of a second counting as one. -/
def ceilSecs (d : Duration) : Nat := d / nanosPerSec + if d % nanosPerSec = 0 then 0 else 1

theorem le_ceilSecs (d : Duration) : d ≤ ceilSecs d * nanosPerSec := by
  have key : ∀ n : Nat,
      n ≤ (n / 1000000000 + if n % 1000000000 = 0 then 0 else 1) * 1000000000 := by
    intro n
    split <;> omega
  exact key d

end Duration

namespace Instant

/-- The instant `n` milliseconds after 1970 began. -/
def ofMillis (n : Nat) : Instant := n * nanosPerMilli

/-- The whole seconds since 1970 began. -/
def unixSecs (t : Instant) : Nat := t / nanosPerSec

/-- The instant that lies a length of time ahead, if the clock with the last instant gets there. -/
def plus? (t : Instant) (d : Duration) (last : Instant) : Option Instant :=
  if t + d ≤ last then some (t + d) else none

theorem plus?_eq_some_iff {t t' last : Instant} {d : Duration} :
    t.plus? d last = some t' ↔ t + d ≤ last ∧ t + d = t' := by
  rw [plus?, Option.ite_none_right_eq_some, Option.some.injEq]

theorem plus?_eq_none_iff {t last : Instant} {d : Duration} :
    t.plus? d last = none ↔ last < t + d := by
  rw [plus?, ite_eq_right_iff]
  simp

end Instant

/-- The largest number of seconds that a signed word of 64 bits holds. Points of time that leave
the program, such as the end of a window, are such numbers. -/
def maxSecs : Nat := maxSigned 64

end Gatehouse
