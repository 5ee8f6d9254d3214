import CommandBridge.Error
import CommandBridge.Time.Span

/-!
# Commands and replies

The closed set of requests a producer may make, and the replies they get. A request becomes a
command when the queue accepts it and stamps it with a number.

Memory operations come alone or in a batch. Their replies are of one type, `AccessReply`, so that
what a batch says about an operation can be compared with what the operation says alone.
-/

namespace CommandBridge

/-- How long an overlay stays. -/
inductive Hold
  | ticks (count : UInt64)
  | millis (ms : Int64)
  deriving DecidableEq, Repr

namespace Hold

/-- Refuses holds of no ticks and of negative length. -/
def check : Hold → Except Misuse Unit
  | ticks count => if count = 0 then .error .emptyHold else .ok ()
  | millis ms => if ms.toInt < 0 then .error (.negativeHold ms.toInt) else .ok ()

/-- The number of ticks that a hold lasts at a tick rate. -/
def duration (rate : Binary64) : Hold → UInt64
  | ticks count => count
  | millis ms => ticksOfMillis (UInt64.ofNat ms.toInt.natAbs) rate

end Hold

/-- A read or write of a range of memory. -/
inductive MemoryOp
  | read (start : Address) (size : Nat)
  | write (start : Address) (data : List UInt8)
  deriving DecidableEq, Repr

/-- What a producer may ask for. -/
inductive Request
  | readByte (address : Address)
  | readRange (start : Address) (size : Nat)
  | writeByte (address : Address) (value : UInt8)
  /-- Write bytes; either all or none are written. -/
  | writeRange (start : Address) (data : List UInt8)
  /-- Several reads and writes in one tick, in order. -/
  | batch (ops : List MemoryOp)
  /-- Force buttons down and up on a channel, on top of what is forced already. Without a hold
  this lasts one tick. -/
  | setOverlay (channel : Channel) (set clear : Buttons) (hold : Option Hold)
  /-- Release forced buttons: the given ones that are forced down, or everything. -/
  | clearOverlay (channel : Channel) (buttons : Option Buttons)
  /-- Force exactly these buttons down on a channel, instead of what was forced before. Without a
  hold this lasts one tick. -/
  | setState (channel : Channel) (buttons : Buttons) (hold : Option Hold)
  /-- Report the input of every channel. -/
  | inputStatus
  /-- Stop stepping; commands keep running. -/
  | pause
  /-- Go on stepping. -/
  | resume
  | status
  /-- Save a snapshot in a slot. -/
  | saveState (slot : UInt8)
  /-- Restore the snapshot of a slot. -/
  | loadState (slot : UInt8)
  deriving DecidableEq, Repr

/-- A coarse sorting of requests. -/
inductive RequestKind
  | readState | writeState | batch | setOverlay | clearOverlay | setState | inputStatus
  | control | status | saveState | loadState
  deriving DecidableEq, Repr

def RequestKind.name : RequestKind → String
  | readState => "read_state"
  | writeState => "write_state"
  | batch => "batch"
  | setOverlay => "set_overlay"
  | clearOverlay => "clear_overlay"
  | setState => "set_state"
  | inputStatus => "input_status"
  | control => "control"
  | status => "status"
  | saveState => "save_state"
  | loadState => "load_state"

namespace Request

def kind : Request → RequestKind
  | readByte _ | readRange _ _ => .readState
  | writeByte _ _ | writeRange _ _ => .writeState
  | batch _ => .batch
  | setOverlay _ _ _ _ => .setOverlay
  | clearOverlay _ _ => .clearOverlay
  | setState _ _ _ => .setState
  | inputStatus => .inputStatus
  | pause | resume => .control
  | status => .status
  | saveState _ => .saveState
  | loadState _ => .loadState

/-- Whether something has to be loaded for the request to run. Only the questions about the
session and its stepping do without. -/
def needsSession (r : Request) : Bool :=
  r.kind ≠ .control && r.kind ≠ .status

end Request

/-- The request that an operation of a batch would be if it came alone. -/
def MemoryOp.alone : MemoryOp → Request
  | read start size => .readRange start size
  | write start data => .writeRange start data

/-- A request that the queue has accepted. -/
structure Command where
  /-- The number stamped on it. -/
  id : Nat
  /-- What is asked for. -/
  request : Request
  /-- The tick that was current when it was accepted. -/
  submittedAt : Tick
  deriving DecidableEq, Repr

/-- The written form of a command's number. -/
def commandText (id : Nat) : String := "#" ++ Text.decimal id

/-- What a memory operation answers. -/
inductive AccessReply
  | bytes (data : List UInt8)
  /-- How many bytes were written, and from where on. -/
  | written (start : Address) (count : Nat)
  deriving DecidableEq, Repr

/-- The input of one channel. -/
structure ChannelInput where
  channel : Channel
  /-- The buttons reported by the machine's own input. -/
  raw : Buttons
  /-- The buttons the machine will see. -/
  observed : Buttons
  deriving DecidableEq, Repr

/-- A report on the session. -/
structure SessionStatus where
  loaded : Bool
  paused : Bool
  tick : Tick
  /-- Ticks per second. -/
  tickRate : Binary64
  /-- Whether the session has battery-backed memory. -/
  batteryBacked : Bool
  deriving DecidableEq, Repr

/-- What a command answers when it succeeds. -/
inductive Reply
  | byte (value : UInt8)
  /-- The answer of a memory operation. -/
  | access (reply : AccessReply)
  /-- The answers of a batch, one for each operation. -/
  | batch (results : List (Except CommandError AccessReply))
  /-- When an overlay took effect, and when it will lapse if it will. -/
  | overlay (channel : Channel) (appliedAt : Tick) (expiresAt : Option Tick)
  | input (channels : List ChannelInput)
  /-- Whether pausing or resuming changed anything, and how things stand now. -/
  | control (changed paused : Bool)
  | status (report : SessionStatus)
  | slot (slot : UInt8)

/-- How a command ends. -/
abbrev Outcome (α : Type) := Except CommandError α

end CommandBridge
