import CommandBridge.Command.Request
import CommandBridge.Memory.Region

/-!
# Admission of requests

What can be decided about a request before it is queued. Everything here follows from the request
and the configuration: sizes and places of ranges, addresses that no session could ever write,
channels and slots that do not exist, holds without length. What depends on the session is left
to the handlers.

If several things are wrong, the first one in this order is reported: for a batch its size and
then the first operation that would be refused alone, for an overlay the channel and then the
hold.
-/

namespace CommandBridge

/-- What admission knows of a bridge. -/
structure Limits where
  /-- The permissions of the address space. -/
  regions : RegionMap
  channelCount : Nat
  deriving DecidableEq, Repr

/-- Turns a misuse into the error that the producer sees. -/
def refuse {α : Type} (verdict : Except Misuse α) : Outcome α :=
  verdict.mapError .invalidArgument

namespace Limits

/-- Refuses channels that are not configured. -/
def checkChannel (limits : Limits) (c : Channel) : Except Misuse Unit :=
  if c.index < limits.channelCount then .ok ()
  else .error (.unknownChannel c limits.channelCount)

/-- Refuses slots that do not exist. -/
def checkSlot (slot : UInt8) : Except Misuse Unit :=
  if slot.toNat < slotCount then .ok () else .error (.unknownSlot slot)

/-- Refuses holds without length; no hold at all is fine. -/
def checkHold : Option Hold → Except Misuse Unit
  | none => .ok ()
  | some hold => hold.check

/-- Admission of one memory operation. -/
def checkOp (limits : Limits) : MemoryOp → Outcome Unit
  | .read start size => refuse (checkRange start size)
  | .write start data => limits.regions.checkStatic start data.length

/-- Admission of the operations of a batch: the first refusal counts. -/
def checkAll (limits : Limits) : List MemoryOp → Outcome Unit
  | [] => .ok ()
  | op :: rest =>
    match limits.checkOp op with
    | .ok () => limits.checkAll rest
    | .error e => .error e

/-- Admission of a batch. -/
def checkBatch (limits : Limits) (ops : List MemoryOp) : Outcome Unit :=
  if ops.isEmpty then .error (.invalidArgument .emptyBatch)
  else if maxBatchSize < ops.length then .error (.invalidArgument (.longBatch ops.length))
  else limits.checkAll ops

/-- Admission of an overlay with a hold. -/
def checkOverlay (limits : Limits) (c : Channel) (hold : Option Hold) : Outcome Unit :=
  refuse do
    limits.checkChannel c
    checkHold hold

/-- Admission of a request. -/
def check (limits : Limits) : Request → Outcome Unit
  | .readByte _ => .ok ()
  | .readRange start size => limits.checkOp (.read start size)
  | .writeByte address _ => limits.regions.checkStatic address 1
  | .writeRange start data => limits.checkOp (.write start data)
  | .batch ops => limits.checkBatch ops
  | .setOverlay c _ _ hold => limits.checkOverlay c hold
  | .clearOverlay c _ => refuse (limits.checkChannel c)
  | .setState c _ hold => limits.checkOverlay c hold
  | .inputStatus => .ok ()
  | .pause => .ok ()
  | .resume => .ok ()
  | .status => .ok ()
  | .saveState slot => refuse (checkSlot slot)
  | .loadState slot => refuse (checkSlot slot)

end Limits

end CommandBridge
