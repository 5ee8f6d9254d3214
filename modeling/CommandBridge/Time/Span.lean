import CommandBridge.Binary64.Rounding

/-!
# Spans of wall-clock time

Wall-clock time enters in three places: a hold may be given in milliseconds, the tick rate fixes
how long a tick may take, and a producer waits for a bounded time.

* `ticksOfMillis` turns milliseconds into ticks. The product with the rate and the division by a
  thousand are each rounded as floats before the result is rounded to whole ticks, a half away
  from zero. A hold lasts at least one tick, whatever the rate.
* `Span` is a length of time in whole nanoseconds. `Span.ofSeconds?` rounds a float of seconds to
  the nearest nanosecond, ties to the even one, and refuses what is negative, not a number or
  needs more than sixty-four bits of seconds.
-/

namespace CommandBridge

/-- The number of ticks that `ms` milliseconds take at `rate` ticks per second, at least one and
at most `2 ^ 64 - 1`. A rate that gives no positive finite result counts as one tick. -/
def ticksOfMillis (ms : UInt64) (rate : Binary64) : UInt64 :=
  let ticks := ((Binary64.ofNat ms.toNat).mul rate).div (Binary64.ofNat 1000)
  if ticks.isFinite && !ticks.isNegative && 1 ≤ ticks.roundAway then
    UInt64.ofNat (min ticks.roundAway 0xFFFFFFFFFFFFFFFF)
  else 1

/-- A length of time. -/
structure Span where
  nanoseconds : Nat
  deriving DecidableEq, Repr

namespace Span

/-- The nanoseconds of one second. -/
def perSecond : Nat := 1000000000

/-- The whole seconds of a span. -/
def seconds (s : Span) : Nat := s.nanoseconds / perSecond

/-- The nanoseconds beyond the whole seconds. -/
def subsecond (s : Span) : Nat := s.nanoseconds % perSecond

/-- A span of whole seconds. -/
def ofSeconds (n : Nat) : Span := ⟨n * perSecond⟩

/-- A span of milliseconds. -/
def ofMillis (ms : UInt64) : Span := ⟨ms.toNat * 1000000⟩

/-- The span of a float of seconds, to the nearest nanosecond. -/
def ofSeconds? (x : Binary64) : Option Span :=
  if !x.isFinite then none
  else if x.isNegative && !x.isZero then none
  else if UInt64.size * Binary64.unitsPerOne ≤ Binary64.scaled x.magnitude then none
  else some ⟨roundDivEven (Binary64.scaled x.magnitude * perSecond) Binary64.unitsPerOne⟩

@[simp] theorem seconds_ofSeconds (n : Nat) : (ofSeconds n).seconds = n := by
  simp [ofSeconds, seconds, perSecond]

end Span

end CommandBridge
