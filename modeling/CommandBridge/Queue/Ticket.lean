import CommandBridge.Command.Request

/-!
# Tickets

A ticket ties the producer of a command to whoever runs it. It has two halves: the *completer*,
which delivers the outcome, and the *future*, which waits for it. Between them is a slot for one
outcome.

* The first delivery counts. Every later attempt is refused and told what the first one was.
* A completer that is dropped before it has delivered anything delivers an internal error, so a
  future never waits for nothing.
* A future hands the outcome out once. Waiting consumes the future; so does dropping it, and what
  is delivered afterwards is discarded.

A ticket is a plain value. What one thread would see of another one's doing is the order in which
the operations are applied.
-/

namespace CommandBridge

/-- How far a ticket has come, as its completer sees it. -/
inductive TicketState
  /-- No outcome was delivered. -/
  | pending
  /-- A reply was delivered. -/
  | fulfilled
  /-- An error was delivered. -/
  | failed
  deriving DecidableEq, Repr

def TicketState.name : TicketState → String
  | pending => "pending"
  | fulfilled => "fulfilled"
  | failed => "failed"

/-- The state that an outcome leads to. -/
def TicketState.ofOutcome {α : Type} : Outcome α → TicketState
  | .ok _ => .fulfilled
  | .error _ => .failed

/-- The delivering half of a ticket. -/
inductive Completer
  /-- It can still deliver. -/
  | ready
  /-- It has delivered. -/
  | used
  /-- It is gone. -/
  | dropped
  deriving DecidableEq, Repr

/-- The waiting half of a ticket. -/
inductive Future
  /-- It has not handed anything out. -/
  | waiting
  /-- It has handed out the outcome. -/
  | taken
  /-- It was consumed by waiting, or dropped. -/
  | gone
  deriving DecidableEq, Repr

/-- A ticket for an outcome of type `α`. -/
structure Ticket (α : Type) where
  id : Nat
  state : TicketState
  completer : Completer
  /-- The outcome that was delivered and not yet handed out. -/
  slot : Option (Outcome α)
  future : Future

/-- The ticket of the command with number `id` was completed a second time. -/
structure AlreadyCompleted where
  id : Nat
  /-- What the first completion was. -/
  state : TicketState
  deriving DecidableEq, Repr

/-- The wording of a second completion. -/
def AlreadyCompleted.message (e : AlreadyCompleted) : String :=
  "command " ++ commandText e.id ++ " already " ++ e.state.name

namespace Ticket

variable {α : Type}

/-- A new ticket. -/
def issue (id : Nat) : Ticket α := ⟨id, .pending, .ready, none, .waiting⟩

/-- Puts an outcome into the slot, unless there is nobody to take it out. -/
def deliver (t : Ticket α) (outcome : Outcome α) : Ticket α :=
  if t.future = .gone then t else { t with slot := some outcome }

/-! ### The completer -/

/-- Delivers an outcome, if none was delivered before. -/
def complete (t : Ticket α) (outcome : Outcome α) :
    Except AlreadyCompleted Unit × Ticket α :=
  match t.completer with
  | .ready =>
    (.ok (), { t with state := .ofOutcome outcome, completer := .used }.deliver outcome)
  | _ => (.error ⟨t.id, t.state⟩, t)

/-- Drops the completer. If it has not delivered, it delivers an error first. -/
def dropCompleter (t : Ticket α) : Ticket α :=
  match t.completer with
  | .ready => { t with completer := .dropped }.deliver (.error (.internal .unresolved))
  | _ => { t with completer := .dropped }

/-! ### The future -/

/-- Whether an outcome can be taken at once. -/
def isReady (t : Ticket α) : Bool :=
  t.future = .waiting && t.slot.isSome

/-- What the slot gives to somebody who looks now: the outcome in it, an error if it is empty
for good, and otherwise nothing. -/
def peek (t : Ticket α) : Option (Outcome α) :=
  match t.slot with
  | some outcome => some outcome
  | none => if t.completer = .ready then none else some (.error (.internal .abandoned))

/-- Takes the outcome if there is one. After it has been handed out, there is none. -/
def poll (t : Ticket α) : Option (Outcome α) × Ticket α :=
  match t.future with
  | .waiting =>
    match t.peek with
    | some outcome => (some outcome, { t with slot := none, future := .taken })
    | none => (none, t)
  | _ => (none, t)

/-- Drops the future, and with it what is in the slot. -/
def dropFuture (t : Ticket α) : Ticket α := { t with slot := none, future := .gone }

/-- Waits until a deadline at which nothing more has happened, which consumes the future. -/
def wait (t : Ticket α) : Outcome α × Ticket α :=
  (t.peek.getD (.error .timeout), t.dropFuture)

/-- Whether waiting without a deadline would have to wait. -/
def blocks (t : Ticket α) : Bool :=
  !t.isReady && t.future = .waiting

@[simp] theorem poll_taken (t : Ticket α) (h : t.future = .taken) : t.poll = (none, t) := by
  simp [poll, h]

@[simp] theorem future_dropFuture (t : Ticket α) : t.dropFuture.future = .gone := rfl

@[simp] theorem slot_dropFuture (t : Ticket α) : t.dropFuture.slot = none := rfl

@[simp] theorem id_complete (t : Ticket α) (outcome : Outcome α) :
    (t.complete outcome).2.id = t.id := by
  simp only [complete, deliver]
  split <;> (try split) <;> rfl

end Ticket

end CommandBridge
