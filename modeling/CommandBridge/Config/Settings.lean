import CommandBridge.Binary64.Layout
import CommandBridge.Memory.Region
import CommandBridge.Time.Span

/-!
# Settings of a bridge

The numbers a bridge is configured with, their defaults, and the check that a bridge makes before
it starts. The check reports the first thing that is wrong, in the order of the fields of
`Settings`, except that regions come last.

A tick rate is acceptable if it is a positive number whose reciprocal, the time budget of one
tick, can be held in a span with sixty-four bits of seconds. Very high rates have a budget of no
time at all, and that is acceptable.
-/

namespace CommandBridge

open Text

/-- The largest number of channels. -/
def maxChannels : Nat := 8

/-- The settings of a bridge. -/
structure Settings where
  queueCapacity : UInt64
  /-- How many commands run in one tick at most. -/
  commandsPerTick : UInt64
  /-- Ticks per second. -/
  tickRate : Binary64
  channelCount : UInt8
  regions : List Region
  /-- How long producers wait unless they say otherwise, in milliseconds. -/
  timeoutMillis : UInt64
  deriving DecidableEq, Repr

/-- What is wrong with settings, or with starting a bridge. -/
inductive SettingsError
  /-- No room for a command. -/
  | noCapacity
  /-- No command would ever run. -/
  | noCommands
  /-- The tick rate is not positive, not finite, or too low. -/
  | tickRate (value : Binary64)
  /-- No channel, or too many. -/
  | channelCount (value : UInt8)
  /-- Producers would not wait at all. -/
  | noTimeout
  /-- The regions are inverted or overlap. -/
  | regions (why : RegionError)
  /-- The text is no document of settings. -/
  | unreadable
  /-- The tick loop could not be started. -/
  | notStarted (reason : String)
  deriving DecidableEq, Repr

/-- The wording of a settings error. -/
def SettingsError.message : SettingsError → String
  | noCapacity => "queue_capacity must be at least 1"
  | noCommands => "max_commands_per_tick must be at least 1"
  | tickRate value => "tick_rate_hz must be finite and positive, got " ++ value.text
  | channelCount value =>
    "channel_count must be in 1..=" ++ decimal maxChannels ++ ", got " ++ decimal value.toNat
  | noTimeout => "default_timeout_ms must be at least 1"
  | regions why => why.message
  | unreadable => "malformed configuration"
  | notStarted reason => "failed to spawn thread: " ++ reason

namespace Settings

/-- Work memory may be written, battery-backed memory only in a session with a battery, and
nothing else. -/
def defaultRegions : List Region :=
  [⟨"ram", Address.ofNat 0x0000, Address.ofNat 0x07FF, .readWrite⟩,
   ⟨"sram", Address.ofNat 0x6000, Address.ofNat 0x7FFF, .conditional .batteryBacked⟩]

/-- The settings of a bridge that nobody has configured. -/
def standard : Settings where
  queueCapacity := 1000
  commandsPerTick := 16
  tickRate := Binary64.ofNat 60
  channelCount := 4
  regions := defaultRegions
  timeoutMillis := 2000

/-- The seconds of one tick. -/
def secondsPerTick (rate : Binary64) : Binary64 := (Binary64.ofNat 1).div rate

/-- Whether a tick rate is acceptable. -/
def isUsableRate (rate : Binary64) : Bool :=
  rate.isFinite && !rate.isZero && !rate.isNegative &&
    (Span.ofSeconds? (secondsPerTick rate)).isSome

/-- Refuses settings that a bridge cannot run with. -/
def check (s : Settings) : Except SettingsError Unit := do
  if s.queueCapacity = 0 then throw .noCapacity
  if s.commandsPerTick = 0 then throw .noCommands
  if !isUsableRate s.tickRate then throw (.tickRate s.tickRate)
  if s.channelCount = 0 ∨ maxChannels < s.channelCount.toNat then
    throw (.channelCount s.channelCount)
  if s.timeoutMillis = 0 then throw .noTimeout
  (checkRegions s.regions).mapError .regions

/-- The time budget of one tick; a second if the rate does not give one. -/
def tickBudget (s : Settings) : Span :=
  (Span.ofSeconds? (secondsPerTick s.tickRate)).getD (Span.ofSeconds 1)

/-- How long producers wait unless they say otherwise. -/
def timeout (s : Settings) : Span := Span.ofMillis s.timeoutMillis

end Settings

end CommandBridge
