import CommandBridge.Memory.Image
import CommandBridge.Session.Machine

/-!
# A scripted machine

A machine that lives entirely in memory: a flat address space, save slots, and a record of every
frame it was stepped with. Its input is set from outside, and its faults are scripted: a step that
fails, reads, writes, steps and inputs that panic, and save slots that do not work.

Address `0x2002` is a latch, like the status register of a picture chip: reading it outside
inspection clears its top bit. Reads are counted, inside inspection and outside, so the counts show
whether anybody has read memory without inspecting.

Faults come before anything changes or is counted, with one exception: a step that fails has taken
place.
-/

namespace CommandBridge

/-- How the save slots of a scripted machine behave. -/
inductive SlotMode
  /-- They work. -/
  | working
  /-- There are none. -/
  | unsupported
  /-- Using one fails with this error. -/
  | failing (error : MachineError)
  deriving DecidableEq, Repr

/-- The faults of a scripted machine. -/
structure Faults where
  /-- The step of this tick fails. -/
  failingStep : Option Tick
  /-- Reading this address panics. -/
  panicOnRead : Option Address
  /-- Writing this address panics. -/
  panicOnWrite : Option Address
  /-- The step of this tick panics. -/
  panicStep : Option Tick
  /-- Asking for the input of this channel panics. -/
  panicRaw : Option Channel
  /-- The payload of a scripted panic other than one of a read, from what was being done. -/
  payload : String → Panic
  /-- How save slots behave. -/
  slots : SlotMode

/-- A machine without faults. -/
def Faults.none : Faults where
  failingStep := Option.none
  panicOnRead := Option.none
  panicOnWrite := Option.none
  panicStep := Option.none
  panicRaw := Option.none
  payload := fun _ => .silent
  slots := .working

/-- A machine in memory. -/
structure Scripted where
  /-- The bytes of the address space. -/
  memory : MemoryImage
  /-- The saved snapshots, by slot. -/
  slots : Vector (Option MemoryImage) 256
  loaded : Bool
  /-- Whether the session has battery-backed memory. -/
  battery : Bool
  inspection : Bool
  /-- Reads inside inspection. -/
  inspectedReads : Nat
  /-- Reads outside inspection. -/
  uninspectedReads : Nat
  /-- Writes. -/
  pokes : Nat
  /-- Steps, failed ones included. -/
  steps : Nat
  raw : Vector Buttons 256
  /-- The frames of all steps, oldest first. -/
  frames : Array InputFrame
  faults : Faults

namespace Scripted

/-- The address of the latch. -/
def latch : Address := Address.ofNat 0x2002

/-- A new machine: zeros everywhere but in the latch, whose top bit is set. -/
def fresh (loaded battery : Bool) (faults : Faults) : Scripted where
  memory := MemoryImage.zeros.set latch 0x80
  slots := Vector.replicate 256 none
  loaded := loaded
  battery := battery
  inspection := false
  inspectedReads := 0
  uninspectedReads := 0
  pokes := 0
  steps := 0
  raw := Vector.replicate 256 Buttons.none
  frames := #[]
  faults := faults

/-! ### Access from outside -/

def snapshot (s : Scripted) (slot : UInt8) : Option MemoryImage :=
  s.slots[slot.toFin]

/-- The input set for a channel. -/
def rawOf (s : Scripted) (c : Channel) : Buttons := s.raw[c.toFin]

/-- Sets the input of a channel. -/
def setRaw (s : Scripted) (c : Channel) (buttons : Buttons) : Scripted :=
  { s with raw := s.raw.set c.toFin buttons }

/-- Sets whether something is loaded. -/
def setLoaded (s : Scripted) (loaded : Bool) : Scripted := { s with loaded := loaded }

/-- The frame of the first step at a tick. -/
def frameAt (s : Scripted) (tick : Tick) : Option InputFrame :=
  s.frames.find? fun frame => frame.tick = tick

/-- The buttons seen on a channel, for every step. -/
def history (s : Scripted) (c : Channel) : List (Tick × Buttons) :=
  s.frames.toList.map fun frame => (frame.tick, frame.channel c)

/-! ### What the machine does -/

/-- Reads a byte, with the side effects of reading unless inspection is on. -/
def peek (a : Address) : Action Scripted UInt8 := fun s =>
  if s.faults.panicOnRead = some a then
    (.error (.text ("scripted panic reading " ++ a.text)), s)
  else
    let value := s.memory.get a
    if s.inspection then
      (.ok value, { s with inspectedReads := s.inspectedReads + 1 })
    else if a = latch then
      (.ok value, { s with
        uninspectedReads := s.uninspectedReads + 1
        memory := s.memory.set a (value &&& 0x7F) })
    else
      (.ok value, { s with uninspectedReads := s.uninspectedReads + 1 })

def poke (a : Address) (value : UInt8) : Action Scripted Unit := fun s =>
  if s.faults.panicOnWrite = some a then (.error (s.faults.payload "poke"), s)
  else (.ok (), { s with pokes := s.pokes + 1, memory := s.memory.set a value })

/-- Records the frame of a step, which may be scripted to fail. -/
def step (frame : InputFrame) : Action Scripted (Except MachineError Unit) := fun s =>
  if s.faults.panicStep = some frame.tick then (.error (s.faults.payload "step"), s)
  else
    (.ok (if s.faults.failingStep = some frame.tick then
        .error (.stepFailed ("scripted failure at tick " ++ frame.tick.text))
      else .ok ()),
    { s with steps := s.steps + 1, frames := s.frames.push frame })

/-- The input of a channel. -/
def rawInput (c : Channel) : Action Scripted Buttons := Action.ask fun s =>
  if s.faults.panicRaw = some c then .error (s.faults.payload "raw_input") else .ok (s.rawOf c)

/-- Saves the memory in a slot. -/
def saveState (slot : UInt8) : Action Scripted (Except MachineError Unit) := fun s =>
  match s.faults.slots with
  | .working =>
    (.ok (.ok ()), { s with slots := s.slots.set slot.toFin (some s.memory) })
  | .unsupported => (.ok (.error savingUnsupported), s)
  | .failing error => (.ok (.error error), s)

/-- Restores the memory saved in a slot. -/
def loadState (slot : UInt8) : Action Scripted (Except MachineError Unit) := fun s =>
  match s.faults.slots with
  | .working =>
    match s.snapshot slot with
    | some image => (.ok (.ok ()), { s with memory := image })
    | none => (.ok (.error (.emptySlot slot)), s)
  | .unsupported => (.ok (.error loadingUnsupported), s)
  | .failing error => (.ok (.error error), s)

instance : Machine Scripted where
  isLoaded := Action.ask fun s => .ok s.loaded
  hasFeature
    | .batteryBacked => Action.ask fun s => .ok s.battery
  rawInput := rawInput
  step := step
  peek := peek
  poke := poke
  setInspection active s := { s with inspection := active }
  saveState := saveState
  loadState := loadState

end Scripted

end CommandBridge
