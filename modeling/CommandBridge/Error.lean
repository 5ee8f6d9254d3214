import CommandBridge.Input.Frame
import CommandBridge.Memory.Address
import CommandBridge.Panic

/-!
# What can go wrong

Errors are kept as causes; their wording is in the `message` functions and nowhere else.

* `Misuse` lists the ways in which a request can be ill-formed. All of them can be seen without
  looking at the session.
* `MachineError` is what a machine reports about itself.
* `CommandError` is what a producer of commands sees. A command refused at submission, one that
  fails while it runs and one that nobody waited for all end here.
* Panics are no errors of their own: a panic of a handler becomes an internal error of its
  command.
-/

namespace CommandBridge

open Text

/-- The largest number of bytes a range may have. -/
def maxRangeSize : Nat := 4096

/-- The largest number of operations in a batch. -/
def maxBatchSize : Nat := 100

/-- The number of save slots. -/
def slotCount : Nat := 10

/-- A way in which a request is ill-formed. -/
inductive Misuse
  | emptyRange
  /-- A range of more bytes than allowed. -/
  | longRange (size : Nat)
  /-- A range that runs past the last address. -/
  | rangeBeyondSpace (start : Address) (size : Nat)
  | emptyBatch
  /-- A batch of more operations than allowed. -/
  | longBatch (size : Nat)
  /-- A channel that is not configured. -/
  | unknownChannel (channel : Channel) (count : Nat)
  | unknownSlot (slot : UInt8)
  | emptyHold
  | negativeHold (ms : Int)
  /-- A text that is no address. -/
  | address (why : Address.ReadError)
  | unknownButton (name : String)
  | described (reason : String)
  deriving DecidableEq, Repr

def Misuse.message : Misuse → String
  | emptyRange => "length must be greater than 0"
  | longRange size =>
    "length " ++ decimal size ++ " exceeds maximum of " ++ decimal maxRangeSize
  | rangeBeyondSpace start size =>
    "range " ++ start.text ++ "+" ++ decimal size ++ " exceeds address space"
  | emptyBatch => "batch must contain at least one operation"
  | longBatch size =>
    "batch of " ++ decimal size ++ " operations exceeds maximum of " ++ decimal maxBatchSize
  | unknownChannel channel count =>
    "channel " ++ channel.text ++ " out of range (have " ++ decimal count ++ " channels)"
  | unknownSlot slot =>
    "save slot " ++ decimal slot.toNat ++ " out of range (0..=" ++ decimal (slotCount - 1) ++ ")"
  | emptyHold => "hold must be at least one tick"
  | negativeHold ms => "hold duration must not be negative, got " ++ signedDecimal ms ++ " ms"
  | address .empty => "empty address"
  | address (.malformed text) => "malformed address '" ++ text ++ "'"
  | address (.outOfRange text) => "address '" ++ text ++ "' out of range"
  | unknownButton name => "unknown button '" ++ name ++ "'"
  | described reason => reason

/-- What a machine reports about itself. -/
inductive MachineError
  | stepFailed (reason : String)
  /-- Nothing was saved in the slot. -/
  | emptySlot (slot : UInt8)
  /-- The machine cannot do this. -/
  | unsupported (operation : String)
  | other (reason : String)
  deriving DecidableEq, Repr

def MachineError.message : MachineError → String
  | stepFailed reason => "step failed: " ++ reason
  | emptySlot slot => "save slot " ++ decimal slot.toNat ++ " is empty"
  | unsupported operation => "unsupported operation: " ++ operation
  | other reason => reason

/-- What a session lacks for a command. -/
inductive Unmet
  | noSession
  | machine (error : MachineError)
  | described (reason : String)
  deriving DecidableEq, Repr

def Unmet.message : Unmet → String
  | noSession => "no session loaded"
  | machine error => error.message
  | described reason => reason

/-- An unexpected failure behind the scenes. -/
inductive Failure
  /-- The handler of the command panicked. -/
  | handlerPanicked (panic : Panic)
  /-- The command was let go of before it had an outcome. -/
  | unresolved
  /-- The outcome is gone and no other one can come. -/
  | abandoned
  | machine (error : MachineError)
  | described (reason : String)
  deriving DecidableEq, Repr

def Failure.message : Failure → String
  | handlerPanicked panic => "handler panicked: " ++ panic.report
  | unresolved => "command dropped without a result"
  | abandoned => "completer dropped without a result"
  | machine error => error.message
  | described reason => reason

/-- What a producer of commands sees instead of a reply. -/
inductive CommandError
  /-- No room in the queue. -/
  | queueFull
  | invalidArgument (why : Misuse)
  /-- A write touches an address that may not be written. -/
  | permissionDenied (address : Address)
  /-- The session cannot run the command now. -/
  | preconditionUnmet (why : Unmet)
  /-- The producer stopped waiting. -/
  | timeout
  /-- Something broke. -/
  | internal (why : Failure)
  /-- The bridge is closed and the command never ran. -/
  | shutdown
  deriving DecidableEq, Repr

namespace CommandError

def message : CommandError → String
  | queueFull => "command queue full"
  | invalidArgument why => "invalid argument: " ++ why.message
  | permissionDenied address => "permission denied: address " ++ address.text ++ " is not writable"
  | preconditionUnmet why => "precondition unmet: " ++ why.message
  | timeout => "timed out waiting for command result"
  | internal why => "internal error: " ++ why.message
  | shutdown => "bridge is shut down"

/-- Whether the same request may succeed later without any change. -/
def isTransient : CommandError → Bool
  | queueFull => true
  | timeout => true
  | _ => false

/-- The error of a command that failed because its machine reported one. A missing snapshot or
capability is a precondition that is not met; all else is internal. -/
def ofMachine : MachineError → CommandError
  | .emptySlot slot => .preconditionUnmet (.machine (.emptySlot slot))
  | .unsupported operation => .preconditionUnmet (.machine (.unsupported operation))
  | .stepFailed reason => .internal (.machine (.stepFailed reason))
  | .other reason => .internal (.machine (.other reason))

end CommandError

end CommandBridge
