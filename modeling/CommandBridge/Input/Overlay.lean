import CommandBridge.Input.Frame

/-!
# Overlays of one channel

An overlay changes what the machine sees of a channel's own input. Two masks decide that:
`forced` buttons are seen as down, and of the others only the `allowed` ones are let through.

```text
observed = (raw & allowed) | forced
```

Every hold leaves an entry with the tick at which it lapses. When that tick comes, the bits of the
entry are given back, except those that another entry still holds. The entries are sorted by
tick, and entries of the same tick stay in the order in which they came.

Design points:

* Without entries a channel is `neutral`: nothing forced and everything allowed. Operations that
  remove the last entry go back to `neutral` as a whole.
* An entry without bits would change nothing when it lapses, so none is kept.
* The masks are kept beside the entries and changed step by step. That they are always the union
  of the entries' masks is a fact about the operations, not part of the type.
-/

namespace CommandBridge

/-- The bits that lapse together at a tick. -/
structure OverlayEntry where
  /-- The tick at which the bits are given back. -/
  lapse : Tick
  /-- Buttons held down. -/
  set : Buttons
  /-- Buttons held up. -/
  clear : Buttons
  deriving DecidableEq, Repr

/-- Whether an entry holds no button either way. -/
def OverlayEntry.isEmpty (e : OverlayEntry) : Bool := e.set.isEmpty && e.clear.isEmpty

/-- The overlay of one channel. -/
structure Overlay where
  /-- Buttons seen as down whatever the raw input. -/
  forced : Buttons
  /-- Buttons of the raw input that are let through. -/
  allowed : Buttons
  /-- What is going to lapse, earliest first. -/
  entries : List OverlayEntry
  deriving DecidableEq, Repr

namespace Overlay

/-- The overlay that lets raw input through unchanged. -/
def neutral : Overlay := ⟨Buttons.none, Buttons.all, []⟩

/-- What is seen of raw input. -/
def observed (o : Overlay) (raw : Buttons) : Buttons := (raw.inter o.allowed).union o.forced

/-- Whether raw input is let through unchanged. -/
def isNeutral (o : Overlay) : Bool := o.allowed.isAll && o.forced.isEmpty

/-- The tick at which something lapses next. -/
def nextLapse (o : Overlay) : Option Tick := o.entries.head?.map (·.lapse)

/-- Puts an entry behind all entries that lapse no later. -/
def insertEntry (e : OverlayEntry) : List OverlayEntry → List OverlayEntry
  | [] => [e]
  | x :: rest => if x.lapse ≤ e.lapse then x :: insertEntry e rest else e :: x :: rest

/-- Schedules an entry unless it is empty. -/
def schedule (o : Overlay) (e : OverlayEntry) : Overlay :=
  if e.isEmpty then o else { o with entries := insertEntry e o.entries }

/-- Forces buttons down and up on top of what is forced already. -/
def hold (o : Overlay) (e : OverlayEntry) : Overlay :=
  { o with
    forced := o.forced.union e.set
    allowed := o.allowed.inter e.clear.compl }.schedule e

/-- Forces exactly the buttons of the entry, instead of what was forced before. -/
def replace (e : OverlayEntry) : Overlay :=
  { neutral with forced := e.set }.schedule e

/-- Stops forcing the given buttons down. Buttons forced up stay, but only as long as some entry
is left. -/
def release (o : Overlay) (buttons : Buttons) : Overlay :=
  let entries := (o.entries.map fun e => { e with set := e.set.diff buttons }).filter
    fun e => !e.isEmpty
  if entries.isEmpty then neutral
  else { o with forced := o.forced.diff buttons, entries := entries }

/-- Gives back the bits of an entry that has lapsed, except those still held. -/
def giveBack (stillSet stillClear : Buttons) (o : Overlay) (e : OverlayEntry) : Overlay :=
  { o with
    forced := o.forced.diff (e.set.diff stillSet)
    allowed := o.allowed.union (e.clear.diff stillClear) }

/-- Processes every entry that lapses at tick `now` or earlier. -/
def expire (o : Overlay) (now : Tick) : Overlay :=
  let due := o.entries.takeWhile fun e => e.lapse ≤ now
  let rest := o.entries.dropWhile fun e => e.lapse ≤ now
  if due.isEmpty then o
  else if rest.isEmpty then neutral
  else
    let stillSet := Buttons.unionAll (rest.map (·.set))
    let stillClear := Buttons.unionAll (rest.map (·.clear))
    due.foldl (giveBack stillSet stillClear) { o with entries := rest }

@[simp] theorem observed_neutral (raw : Buttons) : neutral.observed raw = raw := by
  simp only [observed, neutral, Buttons.inter, Buttons.union, Buttons.all, Buttons.none]
  cases raw with
  | mk bits =>
    congr 1
    simp [show (255 : UInt8) = -1 from rfl]

@[simp] theorem isNeutral_neutral : neutral.isNeutral = true := by decide

@[simp] theorem nextLapse_neutral : neutral.nextLapse = none := rfl

@[simp] theorem length_insertEntry (e : OverlayEntry) (l : List OverlayEntry) :
    (insertEntry e l).length = l.length + 1 := by
  induction l with
  | nil => rfl
  | cons x rest ih =>
    simp only [insertEntry]
    split <;> simp [ih]

end Overlay

end CommandBridge
