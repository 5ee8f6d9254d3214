import CommandBridge.Input.Buttons
import CommandBridge.Time.Tick

/-!
# Channels and frames

A machine has a few input channels, one for each controller, numbered from zero. What it is given
for one step is a frame: the tick it is stepped at and the buttons seen on every channel.
-/

namespace CommandBridge

/-- The number of an input channel. -/
structure Channel where
  /-- Counted from zero. -/
  val : UInt8
  deriving DecidableEq, Repr

namespace Channel

/-- The position of the channel's entry in a list of channels. -/
def index (c : Channel) : Nat := c.val.toNat

/-- The channel as a position in a table of all channels. -/
def toFin (c : Channel) : Fin 256 := ⟨c.index, c.val.toNat_lt⟩

/-- The channel at a position below 256. -/
def ofIndex (i : Nat) : Channel := ⟨UInt8.ofNat i⟩

/-- The decimal number of the channel. -/
def text (c : Channel) : String := Text.decimal c.index

/-- The first `count` channels. -/
def firsts (count : Nat) : List Channel := (List.range count).map ofIndex

@[simp] theorem ofIndex_index (c : Channel) : ofIndex c.index = c := by
  simp [ofIndex, index]

end Channel

/-- The input of one step. -/
structure InputFrame where
  tick : Tick
  /-- The buttons seen on each channel, in channel order. -/
  channels : List Buttons
  deriving DecidableEq, Repr

/-- The buttons seen on a channel; none on a channel the frame does not have. -/
def InputFrame.channel (frame : InputFrame) (c : Channel) : Buttons :=
  frame.channels[c.index]?.getD Buttons.none

end CommandBridge
