import CommandBridge.Error
import CommandBridge.Input.Overlay

/-!
# Overlays of all channels

One overlay for each configured channel, and the operations that commands perform on them. An
operation either succeeds with a new set or names what is wrong with its arguments; a hold without
ticks is found before an unknown channel.

Channels that are not configured have no overlay, so their raw input is seen as it is.
-/

namespace CommandBridge

/-- The overlays of all channels, in channel order. -/
structure OverlaySet where
  overlays : List Overlay
  deriving DecidableEq, Repr

namespace OverlaySet

/-- Neutral overlays for `count` channels. -/
def fresh (count : Nat) : OverlaySet := ⟨List.replicate count Overlay.neutral⟩

def count (s : OverlaySet) : Nat := s.overlays.length

/-- The overlay of a channel, if it is configured. -/
def channel? (s : OverlaySet) (c : Channel) : Option Overlay := s.overlays[c.index]?

/-- Refuses channels that are not configured. -/
def checkChannel (s : OverlaySet) (c : Channel) : Except Misuse Unit :=
  if c.index < s.count then .ok () else .error (.unknownChannel c s.count)

/-- Changes the overlay of a configured channel. -/
def modify (s : OverlaySet) (c : Channel) (f : Overlay → Overlay) : OverlaySet :=
  ⟨s.overlays.modify c.index f⟩

/-- Puts an entry on a channel by means of `place`, for `duration` ticks from `now` on. The tick
at which the entry lapses is returned if there is anything in it to lapse. -/
def place (s : OverlaySet) (c : Channel) (set clear : Buttons) (now : Tick) (duration : UInt64)
    (place : Overlay → OverlayEntry → Overlay) : Except Misuse (Option Tick × OverlaySet) := do
  if duration = 0 then throw .emptyHold
  s.checkChannel c
  let entry : OverlayEntry := ⟨now.offset duration, set, clear⟩
  return (if entry.isEmpty then none else some entry.lapse, s.modify c fun o => place o entry)

/-- Forces buttons down and up on a channel, on top of what is forced already. -/
def setOverlay (s : OverlaySet) (c : Channel) (set clear : Buttons) (now : Tick)
    (duration : UInt64) : Except Misuse (Option Tick × OverlaySet) :=
  s.place c set clear now duration Overlay.hold

/-- Forces exactly the given buttons down on a channel. -/
def setState (s : OverlaySet) (c : Channel) (buttons : Buttons) (now : Tick)
    (duration : UInt64) : Except Misuse (Option Tick × OverlaySet) :=
  s.place c buttons Buttons.none now duration fun _ entry => Overlay.replace entry

/-- Releases forced buttons: those given, or all and with them every entry. -/
def clearOverlay (s : OverlaySet) (c : Channel) (buttons : Option Buttons) :
    Except Misuse OverlaySet := do
  s.checkChannel c
  return s.modify c fun o =>
    match buttons with
    | some b => o.release b
    | none => Overlay.neutral

/-- What is seen of a channel's raw input. -/
def observed (s : OverlaySet) (c : Channel) (raw : Buttons) : Buttons :=
  match s.channel? c with
  | some o => o.observed raw
  | none => raw

/-- Processes everything that lapses at tick `now` or earlier. -/
def expire (s : OverlaySet) (now : Tick) : OverlaySet := ⟨s.overlays.map (·.expire now)⟩

/-- Makes every channel neutral. -/
def reset (s : OverlaySet) : OverlaySet := fresh s.count

/-- The channels of the set, in order. -/
def channels (s : OverlaySet) : List Channel := Channel.firsts s.count

/-- The frame for a tick, from the raw input of each channel. -/
def frame (s : OverlaySet) (tick : Tick) (raw : Channel → Buttons) : InputFrame :=
  ⟨tick, s.channels.map fun c => s.observed c (raw c)⟩

@[simp] theorem count_fresh (n : Nat) : (fresh n).count = n := by simp [fresh, count]

@[simp] theorem count_modify (s : OverlaySet) (c : Channel) (f : Overlay → Overlay) :
    (s.modify c f).count = s.count := by simp [modify, count]

@[simp] theorem count_expire (s : OverlaySet) (now : Tick) : (s.expire now).count = s.count := by
  simp [expire, count]

end OverlaySet

end CommandBridge
