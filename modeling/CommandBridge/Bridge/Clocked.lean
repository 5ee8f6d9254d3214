import CommandBridge.Bridge.Basic

/-!
# Bridges with a loop of their own

A clocked bridge is ticked by a loop that keeps to the tick rate. Seen from outside, the loop is
always in one of four places:

* **stepping**: inside the step of the current tick. The commands of that tick have run and its
  frame is built; the step is yet to finish and to be counted.
* **idling**: the session is paused. The loop goes round without stepping and runs commands as
  soon as they are submitted.
* **dead**: a panic has got out of a tick, or the clock could not name the end of a tick. Nothing
  drains the queue any more, and the machine is lost.
* **ended**: the loop was asked to stop and has left after finishing its step. The machine can be
  taken back.

`advance` lets the step finish and follows the loop to the next place where it stays. Between two
places the loop works out when the tick's time is up: the clock's reading at the start of the tick
plus the budget. The clock counts seconds in sixty-four bits with a sign, so for a very low tick
rate that moment may not exist, which ends the loop like a panic.
-/

namespace CommandBridge

/-- The moment at which the time of a tick is up, if the clock can name it. Readings count from
the clock's start. -/
def tickDeadline? (reading budget : Span) : Option Span :=
  let deadline : Span := ⟨reading.nanoseconds + budget.nanoseconds⟩
  if deadline.seconds < UInt64.size / 2 then some deadline else none

/-- Where the loop of a clocked bridge is. -/
inductive LoopPlace
  /-- Inside the step of the current tick. -/
  | stepping (tick : OpenTick)
  /-- Going round without stepping. -/
  | idling
  /-- Lost. -/
  | dead
  /-- Left on request. -/
  | ended

/-- A bridge with a loop of its own. -/
structure Clocked (σ : Type) where
  /-- The bridge that the loop ticks. -/
  bridge : Bridge σ
  place : LoopPlace
  /-- The time budget of a tick. -/
  tickBudget : Span
  /-- How long producers wait unless they say otherwise. -/
  timeout : Span
  /-- The reading of the clock. -/
  reading : Span
  /-- Whether the loop has ever idled, after which the number of its ticks is anyone's guess. -/
  hasIdled : Bool
  /-- Whether the bridge was shut down. -/
  isShutDown : Bool

/-- What shutting down did. -/
structure ShutdownReport where
  /-- Whether the loop ended in good order. -/
  ended : Bool
  /-- Waiting commands that were cancelled. -/
  cancelled : Nat
  /-- The tick at which the session stopped, if it was recovered. -/
  finalTick : Option Tick
  deriving DecidableEq, Repr

namespace Clocked

variable {σ : Type}

/-- Whether the loop still drains the queue. -/
def isAlive (c : Clocked σ) : Bool := c.bridge.intake.alive

/-- The bridge as the loop leaves it when it ends for whatever reason. -/
def unattended (b : Bridge σ) : Bridge σ :=
  { b with intake := { b.intake with alive := false } }

/-- The loop is lost. -/
def die (c : Clocked σ) (b : Bridge σ) : Clocked σ :=
  { c with bridge := unattended b, place := .dead }

/-- The session, if the loop has ended and given it back. -/
def recovered? (c : Clocked σ) : Option (Session σ) :=
  match c.place with
  | .ended => some c.bridge.session
  | _ => none

variable [Machine σ]

/-- Follows the loop from the end of a tick to the next place where it stays. A paused tick that
leaves commands waiting is followed by another one at once; each drains at least one command, so
`fuel` above the number of waiting commands is enough. -/
def settle : (fuel : Nat) → Clocked σ → Clocked σ
  | 0, c => { c with place := .idling, hasIdled := true }
  | fuel + 1, c =>
    match Bridge.openTick c.bridge with
    | (.error _, b) => c.die b
    | (.ok o, b) =>
      match o.frame with
      | some _ => { c with bridge := b, place := .stepping o }
      | none =>
        let b' := (Bridge.closeTick o b).2
        if (tickDeadline? c.reading c.tickBudget).isNone then c.die b'
        else if b'.intake.queue.isEmpty then
          { c with bridge := b', place := .idling, hasIdled := true }
        else settle fuel { c with bridge := b' }

/-- Follows the loop with as much fuel as it can need. -/
def follow (c : Clocked σ) : Clocked σ := settle (c.bridge.intake.queue.length + 1) c

/-- Starts a bridge with a loop of its own, if the settings are acceptable. -/
def start (machine : σ) (settings : Settings) : Except SettingsError (Clocked σ) := do
  let bridge ← Bridge.start machine settings
  return follow {
    bridge := bridge
    place := .idling
    tickBudget := settings.tickBudget
    timeout := settings.timeout
    reading := ⟨0⟩
    hasIdled := false
    isShutDown := false }

/-- Lets the step finish, if the loop is in one, and follows the loop. -/
def advance (c : Clocked σ) : Clocked σ :=
  match c.place with
  | .stepping o =>
    let b := (Bridge.closeTick o c.bridge).2
    if (tickDeadline? c.reading c.tickBudget).isNone then c.die b
    else follow { c with bridge := b }
  | _ => c

/-- Admits a request to the queue. An idling loop notices at once. -/
def submit (c : Clocked σ) (request : Request) : Outcome Nat × Clocked σ :=
  let r := c.bridge.submit request
  let c' := { c with bridge := r.2 }
  match c.place, r.1 with
  | .idling, .ok _ => (r.1, follow c')
  | _, _ => (r.1, c')

/-- Takes the outcome of a command if it is there. -/
def poll (c : Clocked σ) (id : Nat) : Option (Outcome Reply) × Clocked σ :=
  let r := c.bridge.poll id
  (r.1, { c with bridge := r.2 })

/-- Advances until a command has its outcome, but no more than `fuel` times. There is none if the
loop dies first. -/
def advanceUntil (id : Nat) : (fuel : Nat) → Clocked σ → Option (Outcome Reply) × Clocked σ
  | fuel, c =>
    match c.poll id with
    | (some outcome, c') => (some outcome, c')
    | (none, c') =>
      match fuel with
      | 0 => (none, c')
      | fuel + 1 => advanceUntil id fuel c'.advance

/-- Submits a request and follows the loop until its outcome is there; none if the loop is dead
or dies. -/
def execute (c : Clocked σ) (request : Request) : Option (Outcome Reply) × Clocked σ :=
  match c.submit request with
  | (.error e, c') => (some (.error e), c')
  | (.ok id, c') => advanceUntil id c'.bridge.intake.queue.length c'

/-- Submits a request and waits for its outcome without letting a step finish, which consumes the
ticket. -/
def executeNow (c : Clocked σ) (request : Request) : Outcome Reply × Clocked σ :=
  match c.submit request with
  | (.error e, c') => (.error e, c')
  | (.ok id, c') =>
    match c'.bridge.intake.ticket? id with
    | none => (.error .timeout, c')
    | some t =>
      (t.wait.1, { c' with bridge := { c'.bridge with
        intake := c'.bridge.intake.modifyTicket id fun t => t.wait.2 } })

/-- Asks the loop to stop and waits for it: a step that is under way finishes first. -/
def leave (c : Clocked σ) : Clocked σ :=
  match c.place with
  | .stepping o =>
    let b := (Bridge.closeTick o c.bridge).2
    if (tickDeadline? c.reading c.tickBudget).isNone then c.die b
    else { c with bridge := unattended b, place := .ended }
  | .idling => { c with bridge := unattended c.bridge, place := .ended }
  | _ => c

/-- Stops the loop and closes the queue. A second time there is nothing to do. -/
def shutdown (c : Clocked σ) : ShutdownReport × Clocked σ :=
  if c.isShutDown then (⟨true, 0, c.recovered?.map (·.tick)⟩, c)
  else
    let left := c.leave
    let r := left.bridge.close
    let c' := { left with bridge := r.2, isShutDown := true }
    (⟨c'.recovered?.isSome, r.1, c'.recovered?.map (·.tick)⟩, c')

/-- Shuts down and gives back the machine, unless it was lost with the loop. -/
def intoMachine (c : Clocked σ) : Option σ × Clocked σ :=
  let c' := c.shutdown.2
  (c'.recovered?.map (·.machine), c')

end Clocked

end CommandBridge
