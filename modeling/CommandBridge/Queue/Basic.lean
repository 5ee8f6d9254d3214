import CommandBridge.Queue.Ticket

/-!
# The queue of commands

Commands wait in a queue of limited length. Accepting one stamps it with the next number and
issues its ticket; numbers are the positions of tickets in the queue's list of tickets, so they
count the accepted commands and nothing else.

* A full queue refuses, and so does a closed one; a refused request leaves no trace.
* Draining takes commands from the front, oldest first. Their tickets stay behind and are
  completed by whoever has drained them.
* Closing cancels what is still waiting. It cannot be undone, and a second time there is nothing
  left to cancel.
-/

namespace CommandBridge

/-- A bounded first-in first-out queue of commands, with the tickets of all commands it has ever
accepted. -/
structure Queue where
  capacity : Nat
  /-- The commands that wait, oldest first. -/
  waiting : List Command
  /-- Whether the queue has been closed. -/
  closed : Bool
  /-- The tickets of all accepted commands, in order of acceptance. -/
  tickets : Array (Ticket Reply)

namespace Queue

/-- An empty queue. -/
def empty (capacity : Nat) : Queue := ⟨capacity, [], false, #[]⟩

/-- An empty queue, provided it has room for a command at all. -/
def create (capacity : Nat) : Except Panic Queue :=
  if capacity = 0 then .error (.text "capacity must be at least 1") else .ok (empty capacity)

def length (q : Queue) : Nat := q.waiting.length

/-- Whether no command waits. -/
def isEmpty (q : Queue) : Bool := q.waiting.isEmpty

/-- The number of the next command. -/
def nextId (q : Queue) : Nat := q.tickets.size

/-- Accepts a request and returns the number stamped on it. -/
def submit (q : Queue) (request : Request) (submittedAt : Tick) :
    Except CommandError (Nat × Queue) :=
  if q.closed then .error .shutdown
  else if q.capacity ≤ q.length then .error .queueFull
  else .ok (q.nextId, { q with
    waiting := q.waiting ++ [⟨q.nextId, request, submittedAt⟩]
    tickets := q.tickets.push (Ticket.issue q.nextId) })

/-- Takes up to `max` commands from the front. -/
def drain (q : Queue) (max : Nat) : List Command × Queue :=
  (q.waiting.take max, { q with waiting := q.waiting.drop max })

/-- Changes the ticket with the given number. -/
def modifyTicket (q : Queue) (id : Nat) (f : Ticket Reply → Ticket Reply) : Queue :=
  { q with tickets := q.tickets.modify id f }

/-- Delivers the outcome of a command. -/
def complete (q : Queue) (id : Nat) (outcome : Outcome Reply) : Queue :=
  q.modifyTicket id fun t => (t.complete outcome).2

/-- Stops accepting commands, cancels the waiting ones and returns how many there were. -/
def close (q : Queue) : Nat × Queue :=
  (q.length,
    q.waiting.foldl (fun q command => q.complete command.id (.error .shutdown))
      { q with waiting := [], closed := true })

@[simp] theorem length_empty (capacity : Nat) : (empty capacity).length = 0 := rfl

@[simp] theorem nextId_empty (capacity : Nat) : (empty capacity).nextId = 0 := rfl

@[simp] theorem waiting_modifyTicket (q : Queue) (id : Nat) (f : Ticket Reply → Ticket Reply) :
    (q.modifyTicket id f).waiting = q.waiting := rfl

@[simp] theorem nextId_modifyTicket (q : Queue) (id : Nat) (f : Ticket Reply → Ticket Reply) :
    (q.modifyTicket id f).nextId = q.nextId := by
  simp [modifyTicket, nextId]

@[simp] theorem waiting_complete (q : Queue) (id : Nat) (outcome : Outcome Reply) :
    (q.complete id outcome).waiting = q.waiting := rfl

/-- Draining splits the waiting commands and loses none. -/
theorem drain_append (q : Queue) (max : Nat) :
    (q.drain max).1 ++ (q.drain max).2.waiting = q.waiting :=
  List.take_append_drop max q.waiting

end Queue

end CommandBridge
