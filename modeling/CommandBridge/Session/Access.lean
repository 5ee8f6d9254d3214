import CommandBridge.Command.Request
import CommandBridge.Session.Machine

/-!
# Guarded access to memory

Reads run under inspection: the flag is raised before the first byte and lowered after the last
one, or when a panic cuts the read short. Writes are checked as a whole before the first byte is
touched, so a refused write changes nothing; a panic in the middle of a write leaves the bytes
before it written.
-/

namespace CommandBridge

variable {σ : Type} [Machine σ]

/-- Runs an action with the inspection flag raised, and lowers the flag however it ends. -/
def inspecting {α : Type} (x : Action σ α) : Action σ α := fun s =>
  let r := x (Machine.setInspection true s)
  (r.1, Machine.setInspection false r.2)

/-- Reads the bytes at a list of addresses. -/
def peekAll : List Address → Action σ (List UInt8)
  | [] => pure []
  | a :: rest => do
    let value ← Machine.peek a
    let values ← peekAll rest
    pure (value :: values)

/-- Writes bytes at consecutive addresses, counted on from `start + offset`. -/
def pokeFrom (start : Address) : (offset : Nat) → List UInt8 → Action σ Unit
  | _, [] => pure ()
  | offset, value :: rest => do
    Machine.poke (Address.ofNat (start.toNat + offset)) value
    pokeFrom start (offset + 1) rest

def readByte (a : Address) : Action σ UInt8 :=
  inspecting (Machine.peek a)

def readRange (start : Address) (size : Nat) : Action σ (Outcome (List UInt8)) :=
  match checkRange start size with
  | .error why => pure (.error (.invalidArgument why))
  | .ok () => do
    let values ← inspecting (peekAll (Address.range start size))
    pure (.ok values)

/-- Writes a range of bytes if all of them may be written, and says how many. -/
def writeRange (map : RegionMap) (start : Address) (data : List UInt8) :
    Action σ (Outcome Nat) := do
  match ← map.checkWrite start data.length Machine.hasFeature with
  | .error e => pure (.error e)
  | .ok () =>
    pokeFrom start 0 data
    pure (.ok data.length)

def MemoryOp.perform (map : RegionMap) : MemoryOp → Action σ (Outcome AccessReply)
  | .read start size => do
    let outcome ← readRange start size
    pure (outcome.map .bytes)
  | .write start data => do
    let outcome ← writeRange map start data
    pure (outcome.map (.written start))

/-- Runs the operations of a batch in order. One that fails does not keep the others from
running; one that panics does. -/
def performAll (map : RegionMap) : List MemoryOp → Action σ (List (Outcome AccessReply))
  | [] => pure []
  | op :: rest => do
    let outcome ← op.perform map
    let outcomes ← performAll map rest
    pure (outcome :: outcomes)

end CommandBridge
