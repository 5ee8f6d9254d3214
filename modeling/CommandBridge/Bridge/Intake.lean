import CommandBridge.Command.Admission
import CommandBridge.Queue.Basic
import CommandBridge.Session.Counters

/-!
# The intake of a bridge

The side of a bridge that producers see: they submit requests and look at its status. It knows
the limits for admission, holds the queue with its tickets, and shows what the session has
published: the current tick, whether somebody still drains the queue, and the counters.

The intake outlives the session. After the session is gone the queue is closed, and requests that
pass admission are refused as coming too late.
-/

namespace CommandBridge

/-- The producers' side of a bridge. -/
structure Intake where
  /-- What admission knows. -/
  limits : Limits
  /-- The waiting commands and all tickets. -/
  queue : Queue
  /-- The current tick as last published. -/
  tick : Tick
  /-- Whether the queue is being drained. -/
  alive : Bool
  counters : Counters

/-- The status of a bridge as producers see it. -/
structure BridgeStatus where
  depth : Nat
  capacity : Nat
  /-- The current tick as last published. -/
  tick : Tick
  /-- Whether the queue is being drained. -/
  alive : Bool
  counters : Counters
  deriving DecidableEq, Repr

namespace Intake

/-- The intake of a new bridge. -/
def start (limits : Limits) (capacity : Nat) : Intake :=
  ⟨limits, Queue.empty capacity, Tick.zero, true, Counters.zero⟩

/-- Admits a request to the queue and returns the number stamped on it. Refusals by admission and
by a full queue are counted; refusals by a closed queue are not. -/
def submit (i : Intake) (request : Request) : Outcome Nat × Intake :=
  match i.limits.check request with
  | .error e => (.error e, { i with counters := i.counters.countInvalid })
  | .ok () =>
    match i.queue.submit request i.tick with
    | .ok (id, queue) => (.ok id, { i with queue := queue })
    | .error .queueFull => (.error .queueFull, { i with counters := i.counters.countFull })
    | .error e => (.error e, i)

/-- The status of the bridge. -/
def status (i : Intake) : BridgeStatus :=
  ⟨i.queue.length, i.queue.capacity, i.tick, i.alive, i.counters⟩

/-- The ticket of the command with the given number. -/
def ticket? (i : Intake) (id : Nat) : Option (Ticket Reply) := i.queue.tickets[id]?

/-- Changes the ticket of a command. -/
def modifyTicket (i : Intake) (id : Nat) (f : Ticket Reply → Ticket Reply) : Intake :=
  { i with queue := i.queue.modifyTicket id f }

/-- Delivers the outcome of a command and counts it. -/
def complete (i : Intake) (id : Nat) (outcome : Outcome Reply) (panicked : Bool) : Intake :=
  let counters := if panicked then i.counters.countPanic else i.counters
  { i with
    queue := i.queue.complete id outcome
    counters := counters.countOutcome outcome.toBool }

/-- Closes the queue for good and returns how many waiting commands were cancelled. -/
def close (i : Intake) : Nat × Intake :=
  let r := i.queue.close
  (r.1, { i with queue := r.2, alive := false })

end Intake

end CommandBridge
