import CommandBridge.Error
import CommandBridge.Memory.Region
import CommandBridge.Session.Action

/-!
# Machines

What the bridge needs to know of the machine it drives: a class of types whose values are the
machine's states. The bridge owns the machine and calls these operations between two steps, one
at a time.

Every operation but one may panic. The exception is the inspection flag: it is lowered on the way
out of a read whatever happened, so it has to work even while a panic is on its way.
-/

namespace CommandBridge

/-- A frame-stepped machine with a 16-bit address space. -/
class Machine (σ : Type) where
  isLoaded : Action σ Bool
  /-- Whether the loaded session has a feature. -/
  hasFeature : Feature → Action σ Bool
  /-- The buttons that the machine's own input reports for a channel. -/
  rawInput : Channel → Action σ Buttons
  step : InputFrame → Action σ (Except MachineError Unit)
  /-- Reads a byte. Outside inspection this may have side effects. -/
  peek : Address → Action σ UInt8
  poke : Address → UInt8 → Action σ Unit
  /-- Raises or lowers the flag that suppresses the side effects of reading. -/
  setInspection : Bool → σ → σ
  /-- Saves a snapshot in a slot. -/
  saveState : UInt8 → Action σ (Except MachineError Unit)
  /-- Restores the snapshot of a slot. -/
  loadState : UInt8 → Action σ (Except MachineError Unit)

/-- What a machine without save slots answers to a request to save. -/
def savingUnsupported : MachineError := .unsupported "save_state"

/-- What a machine without save slots answers to a request to load. -/
def loadingUnsupported : MachineError := .unsupported "load_state"

end CommandBridge
