import CommandBridge.Bridge.Intake
import CommandBridge.Config.Settings
import CommandBridge.Session.Handler

/-!
# Bridges and their ticks

A bridge joins a session with its intake. Time passes in ticks, and a tick has two halves:

1. `openTick` drains up to a tick's budget of commands, runs them in order and completes their
   tickets. Then, unless the session is paused, it builds the input frame for the step.
2. `closeTick` steps the machine with that frame, advances and publishes the tick, lets overlays
   lapse, and counts the tick. In a paused session it only counts.

Nothing happens between the halves when the owner of a bridge ticks it; a bridge that is ticked by
a loop of its own can receive submissions there.

A failing or panicking handler fails its own command only, and a failing or panicking step is
counted and otherwise ignored. A panic while the frame is built is not held back: it cuts the tick
short after its commands have run, and the next tick has the same number.
-/

namespace CommandBridge

/-- A session with its intake. -/
structure Bridge (σ : Type) where
  /-- What commands act on. -/
  session : Session σ
  /-- The producers' side. -/
  intake : Intake
  /-- How many commands run in one tick at most. -/
  budget : Nat

/-- What a tick did. -/
structure TickReport where
  tick : Tick
  /-- Commands that ended with a reply. -/
  executed : Nat
  /-- Commands that ended with an error. -/
  failed : Nat
  /-- Commands left waiting when the budget was used up. -/
  deferred : Nat
  stepped : Bool
  stepFailed : Bool
  deriving DecidableEq, Repr

/-- A tick between its two halves. -/
structure OpenTick where
  /-- The outcomes of the commands it ran, in order. -/
  outcomes : List (Outcome Reply)
  /-- Commands left waiting when the budget was used up. -/
  deferred : Nat
  /-- The frame of the step; none if the session is paused. -/
  frame : Option InputFrame

namespace Bridge

variable {σ : Type}

/-- Starts a bridge around a machine, if the settings are acceptable. -/
def start (machine : σ) (settings : Settings) : Except SettingsError (Bridge σ) := do
  settings.check
  let regions ← (RegionMap.ofRegions settings.regions).mapError .regions
  return {
    session := ⟨machine, OverlaySet.fresh settings.channelCount.toNat, Tick.zero, false,
      regions, settings.tickRate⟩
    intake := Intake.start ⟨regions, settings.channelCount.toNat⟩ settings.queueCapacity.toNat
    budget := settings.commandsPerTick.toNat }

/-- Admits a request to the queue and returns the number stamped on it. -/
def submit (b : Bridge σ) (request : Request) : Outcome Nat × Bridge σ :=
  let r := b.intake.submit request
  (r.1, { b with intake := r.2 })

/-- Takes the outcome of a command if it is there. -/
def poll (b : Bridge σ) (id : Nat) : Option (Outcome Reply) × Bridge σ :=
  match b.intake.ticket? id with
  | none => (none, b)
  | some t => (t.poll.1, { b with intake := b.intake.modifyTicket id fun t => t.poll.2 })

/-- Closes the queue for good and returns how many waiting commands were cancelled. -/
def close (b : Bridge σ) : Nat × Bridge σ :=
  let r := b.intake.close
  (r.1, { b with intake := r.2 })

variable [Machine σ]

/-- Runs one command and completes its ticket. -/
def runCommand (b : Bridge σ) (command : Command) : Outcome Reply × Bridge σ :=
  let r := (Session.handle command.request).run b.session
  let outcome := outcomeOf r.1
  (outcome, { b with
    session := r.2
    intake := b.intake.complete command.id outcome (!r.1.toBool) })

/-- Runs commands in order. -/
def runCommands (b : Bridge σ) : List Command → List (Outcome Reply) × Bridge σ
  | [] => ([], b)
  | command :: rest =>
    let r := b.runCommand command
    let rs := r.2.runCommands rest
    (r.1 :: rs.1, rs.2)

/-- The first half of a tick: runs commands and builds the frame. -/
def openTick : Action (Bridge σ) OpenTick := fun b =>
  let drained := b.intake.queue.drain b.budget
  let r := runCommands { b with intake := { b.intake with queue := drained.2 } } drained.1
  let deferred := drained.2.length
  if r.2.session.paused then (.ok ⟨r.1, deferred, none⟩, r.2)
  else
    let f := Session.nextFrame.run r.2.session
    (f.1.map fun frame => ⟨r.1, deferred, some frame⟩, { r.2 with session := f.2 })

/-- The second half of a tick: steps the machine and counts. -/
def closeTick (o : OpenTick) (b : Bridge σ) : TickReport × Bridge σ :=
  let executed := (o.outcomes.filter (·.toBool)).length
  let failed := o.outcomes.length - executed
  match o.frame with
  | none =>
    (⟨b.session.tick, executed, failed, o.deferred, false, false⟩,
      { b with intake := { b.intake with counters := b.intake.counters.countTick o.deferred } })
  | some frame =>
    let r := b.session.step frame
    let counters := if r.1 then b.intake.counters.countStepFailure else b.intake.counters
    (⟨b.session.tick, executed, failed, o.deferred, true, r.1⟩,
      { b with
        session := r.2
        intake := { b.intake with tick := r.2.tick, counters := counters.countTick o.deferred } })

/-- Runs one tick. -/
def tick : Action (Bridge σ) TickReport := fun b =>
  match openTick b with
  | (.ok o, b') =>
    let r := closeTick o b'
    (.ok r.1, r.2)
  | (.error p, b') => (.error p, b')

/-- Runs `n` ticks; a panic ends the run. -/
def ticks : Nat → Action (Bridge σ) Unit
  | 0 => pure ()
  | n + 1 => do
    let _ ← tick
    ticks n

/-- Runs ticks until a command has its outcome, but no more than `fuel` of them. -/
def tickUntil (id : Nat) : (fuel : Nat) → Action (Bridge σ) (Outcome Reply)
  | 0 => pure (.error .timeout)
  | fuel + 1 => do
    let _ ← tick
    match ← (fun b => let r := b.poll id; (.ok r.1, r.2) : Action (Bridge σ) _) with
    | some outcome => pure outcome
    | none => tickUntil id fuel

/-- Submits a request and runs ticks until its outcome is there. Every tick drains at least one
waiting command, so as many ticks as there are waiting commands are always enough. -/
def execute (request : Request) : Action (Bridge σ) (Outcome Reply) := fun b =>
  match b.submit request with
  | (.error e, b') => (.ok (.error e), b')
  | (.ok id, b') => tickUntil id b'.intake.queue.length b'

end Bridge

end CommandBridge
