/-!
# Counters

What has happened since a bridge was started, in numbers of sixty-four bits that wrap around.
-/

namespace CommandBridge

/-- The counters of a bridge. -/
structure Counters where
  /-- Ticks that were completed, paused ones included. -/
  ticks : UInt64
  /-- Commands that ended with a reply. -/
  executed : UInt64
  /-- Commands that ended with an error, panics included. -/
  failed : UInt64
  /-- Commands whose handler panicked. -/
  panics : UInt64
  /-- Submissions refused because the queue was full. -/
  refusedFull : UInt64
  /-- Submissions refused by admission. -/
  refusedInvalid : UInt64
  /-- Commands left waiting at the end of a tick's budget, summed over completed ticks. -/
  deferred : UInt64
  /-- Steps that failed or panicked. -/
  stepFailures : UInt64
  deriving DecidableEq, Repr

namespace Counters

/-- The counters of a new bridge. -/
def zero : Counters := ⟨0, 0, 0, 0, 0, 0, 0, 0⟩

/-- Counts a command that has ended. -/
def countOutcome (c : Counters) (succeeded : Bool) : Counters :=
  if succeeded then { c with executed := c.executed + 1 } else { c with failed := c.failed + 1 }

/-- Counts a panic of a handler. -/
def countPanic (c : Counters) : Counters := { c with panics := c.panics + 1 }

/-- Counts a step that failed. -/
def countStepFailure (c : Counters) : Counters := { c with stepFailures := c.stepFailures + 1 }

/-- Counts a submission refused by admission. -/
def countInvalid (c : Counters) : Counters := { c with refusedInvalid := c.refusedInvalid + 1 }

/-- Counts a submission refused by a full queue. -/
def countFull (c : Counters) : Counters := { c with refusedFull := c.refusedFull + 1 }

/-- Counts a completed tick that left `deferred` commands waiting. -/
def countTick (c : Counters) (deferred : Nat) : Counters :=
  { c with ticks := c.ticks + 1, deferred := c.deferred + UInt64.ofNat deferred }

end Counters

end CommandBridge
