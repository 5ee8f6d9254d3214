import CommandBridge.Input.OverlaySet
import CommandBridge.Session.Access

/-!
# Handlers of commands

A session is what commands act on: the machine, the overlays, the tick counter and the pause flag,
together with the fixed settings that handlers consult. `handle` runs one request on it.

* Most requests need something loaded; that is asked first.
* A request that fails leaves overlays, tick and pause flag as they were, and if it is about
  memory or slots it fails before it changes anything.
* A request that panics keeps what it had done up to then. Its outcome is made by `outcomeOf`.
-/

namespace CommandBridge

/-- What commands act on. -/
structure Session (σ : Type) where
  machine : σ
  overlays : OverlaySet
  /-- The tick of the next step. -/
  tick : Tick
  paused : Bool
  regions : RegionMap
  /-- Ticks per second. -/
  tickRate : Binary64

namespace Session

variable {σ : Type} {α : Type}

/-- An action of the machine, as an action of the session. -/
def onMachine (x : Action σ α) : Action (Session σ) α :=
  Action.onPart (·.machine) (fun m s => { s with machine := m }) x

/-- How many ticks a hold lasts in this session; one if none is given. -/
def holdTicks (s : Session σ) : Option Hold → Except Misuse UInt64
  | none => .ok 1
  | some hold => hold.check.map fun _ => hold.duration s.tickRate

/-- Changes the overlay of a channel and answers when the change lapses. -/
def changeOverlay (c : Channel)
    (change : Session σ → Except Misuse (Option Tick × OverlaySet)) :
    Action (Session σ) (Outcome Reply) := fun s =>
  match change s with
  | .error why => (.ok (.error (.invalidArgument why)), s)
  | .ok (lapse, overlays) =>
    (.ok (.ok (.overlay c s.tick lapse)), { s with overlays := overlays })

/-- Forces buttons down and up on a channel. -/
def setOverlay (c : Channel) (set clear : Buttons) (hold : Option Hold) :
    Action (Session σ) (Outcome Reply) :=
  changeOverlay c fun s => do
    let duration ← s.holdTicks hold
    s.overlays.setOverlay c set clear s.tick duration

/-- Forces exactly the given buttons down on a channel. -/
def setState (c : Channel) (buttons : Buttons) (hold : Option Hold) :
    Action (Session σ) (Outcome Reply) :=
  changeOverlay c fun s => do
    let duration ← s.holdTicks hold
    s.overlays.setState c buttons s.tick duration

/-- Releases forced buttons of a channel and answers when something lapses next. -/
def clearOverlay (c : Channel) (buttons : Option Buttons) :
    Action (Session σ) (Outcome Reply) :=
  changeOverlay c fun s => do
    let overlays ← s.overlays.clearOverlay c buttons
    return ((overlays.channel? c).bind Overlay.nextLapse, overlays)

/-- Pauses or resumes stepping and answers whether that changed anything. -/
def control (paused : Bool) : Action (Session σ) (Outcome Reply) := fun s =>
  (.ok (.ok (.control (s.paused != paused) paused)), { s with paused := paused })

variable [Machine σ]

/-- The raw input of a list of channels, in order. -/
def rawInputs : List Channel → Action σ (List Buttons)
  | [] => pure []
  | c :: rest => do
    let raw ← Machine.rawInput c
    let raws ← rawInputs rest
    pure (raw :: raws)

/-- Reports raw and observed input of every channel. -/
def inputStatus : Action (Session σ) (Outcome Reply) := do
  let s ← Action.current
  let raws ← onMachine (rawInputs s.overlays.channels)
  pure (.ok (.input ((s.overlays.channels.zip raws).map fun entry =>
    ⟨entry.1, entry.2, s.overlays.observed entry.1 entry.2⟩)))

/-- Reports on the session. -/
def statusReport : Action (Session σ) (Outcome Reply) := do
  let s ← Action.current
  let loaded ← onMachine Machine.isLoaded
  let battery ← onMachine (Machine.hasFeature .batteryBacked)
  pure (.ok (.status ⟨loaded, s.paused, s.tick, s.tickRate, battery⟩))

/-- Runs a memory operation. -/
def access (op : MemoryOp) : Action (Session σ) (Outcome Reply) := do
  let s ← Action.current
  let outcome ← onMachine (op.perform s.regions)
  pure (outcome.map .access)

/-- Runs the operations of a batch. -/
def batch (ops : List MemoryOp) : Action (Session σ) (Outcome Reply) := do
  let s ← Action.current
  let outcomes ← onMachine (performAll s.regions ops)
  pure (.ok (.batch outcomes))

def readOne (a : Address) : Action (Session σ) (Outcome Reply) := do
  let value ← onMachine (readByte a)
  pure (.ok (.byte value))

/-- Runs an operation on a save slot. -/
def useSlot (slot : UInt8) (x : Action σ (Except MachineError Unit)) :
    Action (Session σ) (Outcome Reply) := do
  match ← onMachine x with
  | .ok () => pure (.ok (.slot slot))
  | .error e => pure (.error (.ofMachine e))

/-- Runs a request that has what it needs. -/
def respond : Request → Action (Session σ) (Outcome Reply)
  | .readByte a => readOne a
  | .readRange start size => access (.read start size)
  | .writeByte a value => access (.write a [value])
  | .writeRange start data => access (.write start data)
  | .batch ops => batch ops
  | .setOverlay c set clear hold => setOverlay c set clear hold
  | .clearOverlay c buttons => clearOverlay c buttons
  | .setState c buttons hold => setState c buttons hold
  | .inputStatus => inputStatus
  | .pause => control true
  | .resume => control false
  | .status => statusReport
  | .saveState slot => useSlot slot (Machine.saveState slot)
  | .loadState slot => useSlot slot (Machine.loadState slot)

/-- Runs a request, provided something is loaded if it needs that. -/
def handle (request : Request) : Action (Session σ) (Outcome Reply) :=
  if request.needsSession then do
    let loaded ← onMachine Machine.isLoaded
    if loaded then respond request else pure (.error (.preconditionUnmet .noSession))
  else
    respond request

/-- Builds the frame of the next step from the machine's raw input and the overlays. -/
def nextFrame : Action (Session σ) InputFrame := do
  let s ← Action.current
  let raws ← onMachine (rawInputs s.overlays.channels)
  pure (s.overlays.frame s.tick fun c => raws[c.index]?.getD Buttons.none)

/-- Steps the machine, advances the tick and lets overlays lapse. The answer is whether the step
failed; a failed step takes its tick all the same. -/
def step (frame : InputFrame) (s : Session σ) : Bool × Session σ :=
  let r := (Machine.step frame).run s.machine
  let failed := match r.1 with
    | .ok (.ok ()) => false
    | _ => true
  (failed, { s with
    machine := r.2
    overlays := s.overlays.expire s.tick.next
    tick := s.tick.next })

end Session

/-- The outcome of a command whose handler answered or panicked. -/
def outcomeOf {α : Type} : Except Panic (Outcome α) → Outcome α
  | .ok outcome => outcome
  | .error p => .error (.internal (.handlerPanicked p))

end CommandBridge
