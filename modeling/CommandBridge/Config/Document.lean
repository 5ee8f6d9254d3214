import CommandBridge.Binary64.Reading
import CommandBridge.Config.Settings
import CommandBridge.Json.Reader
import CommandBridge.Json.Writer

/-!
# Documents of settings

Settings are written as a JSON object with one member for each field. Reading is lenient where a
hand-written document profits from it: members may be missing and then have their standard value,
unknown members are skipped, and a record may be written as an array of its fields. It is strict
about what is there: a field that occurs twice, a null, or a number of the wrong kind makes the
document unreadable.

A permission is written as a word, or, if it depends on a feature, as an object with the word as
its only key. A word alone may also be the only key of an object whose value is null.
-/

namespace CommandBridge

/-! ### Reading -/

/-- A value written as a word, or as an object with the word as its only key. -/
def Json.variant? : Json → Option (String × Option Json)
  | .string (some word) => some (word, none)
  | .object [(some word, v)] => some (word, some v)
  | _ => none

/-- Whether nothing but null comes with a word that needs no argument. -/
def Json.isBare : Option Json → Bool
  | none => true
  | some .null => true
  | some _ => false

/-- The feature of a JSON value. -/
def Feature.ofJson? (v : Json) : Option Feature :=
  match v.variant? with
  | some ("battery_backed", argument) => if Json.isBare argument then some .batteryBacked else none
  | _ => none

/-- The permission of a JSON value. -/
def Permission.ofJson? (v : Json) : Option Permission :=
  match v.variant? with
  | some ("read_only", argument) => if Json.isBare argument then some .readOnly else none
  | some ("read_write", argument) => if Json.isBare argument then some .readWrite else none
  | some ("conditional", some argument) => (Feature.ofJson? argument).map .conditional
  | _ => none

/-- The address of a JSON value. -/
def Address.ofJson? (v : Json) : Option Address :=
  (v.natBelow? Address.spaceSize).map Address.ofNat

/-- The channel of a JSON value. -/
def Channel.ofJson? (v : Json) : Option Channel :=
  (v.natBelow? UInt8.size).map Channel.ofIndex

/-- The float of a JSON value. -/
def Binary64.ofJson? : Json → Option Binary64
  | .number literal => Binary64.ofLiteral? literal
  | _ => none

/-- The region of a JSON value. No field may be missing. -/
def Region.ofJson? (v : Json) : Option Region :=
  match v.fields? ["name", "start", "end", "permission"] with
  | some [some name, some first, some last, some permission] => do
    let name ← name.text?
    let first ← Address.ofJson? first
    let last ← Address.ofJson? last
    let permission ← Permission.ofJson? permission
    some ⟨name, first, last, permission⟩
  | _ => none

namespace Settings

/-- The names of the fields in a document, in order. -/
def fieldNames : List String :=
  ["queue_capacity", "max_commands_per_tick", "tick_rate_hz", "channel_count", "regions",
   "default_timeout_ms"]

/-- The value of a field, or its standard value if it is missing. -/
def fieldOr {α : Type} (standard : α) (decode : Json → Option α) : Option Json → Option α
  | none => some standard
  | some v => decode v

/-- A limit of sixty-four bits. -/
def limit? (v : Json) : Option UInt64 := (v.natBelow? UInt64.size).map UInt64.ofNat

/-- A count of eight bits. -/
def count? (v : Json) : Option UInt8 := (v.natBelow? UInt8.size).map UInt8.ofNat

/-- A list of regions. -/
def regions? (v : Json) : Option (List Region) :=
  v.items?.bind fun items => items.mapM Region.ofJson?

/-- The settings of a JSON value. -/
def ofJson? (v : Json) : Option Settings :=
  match v.fields? fieldNames with
  | some [capacity, commands, rate, channels, regions, timeout] => do
    let capacity ← fieldOr standard.queueCapacity limit? capacity
    let commands ← fieldOr standard.commandsPerTick limit? commands
    let rate ← fieldOr standard.tickRate Binary64.ofJson? rate
    let channels ← fieldOr standard.channelCount count? channels
    let regions ← fieldOr standard.regions regions? regions
    let timeout ← fieldOr standard.timeoutMillis limit? timeout
    some ⟨capacity, commands, rate, channels, regions, timeout⟩
  | _ => none

/-- Reads a document of settings and checks them. -/
def read (text : String) : Except SettingsError Settings := do
  match (Json.read? text).bind ofJson? with
  | none => throw .unreadable
  | some s =>
    s.check
    return s

end Settings

/-! ### Writing -/

/-- The word for a feature. -/
def Feature.word : Feature → String
  | batteryBacked => "battery_backed"

/-- A permission as a JSON value. -/
def Permission.toJson : Permission → Json
  | readOnly => .ofString "read_only"
  | readWrite => .ofString "read_write"
  | conditional needs => .object [(some "conditional", .ofString needs.word)]

/-- A region as a JSON value. -/
def Region.toJson (r : Region) : Json :=
  .object [(some "name", .ofString r.name), (some "start", .ofNat r.first.toNat),
    (some "end", .ofNat r.last.toNat), (some "permission", r.permission.toJson)]

namespace Settings

/-- Settings as a JSON value. -/
def toJson (s : Settings) : Json :=
  .object [(some "queue_capacity", .ofNat s.queueCapacity.toNat),
    (some "max_commands_per_tick", .ofNat s.commandsPerTick.toNat),
    (some "tick_rate_hz", .ofFloat s.tickRate),
    (some "channel_count", .ofNat s.channelCount.toNat),
    (some "regions", .array (s.regions.map Region.toJson)),
    (some "default_timeout_ms", .ofNat s.timeoutMillis.toNat)]

/-- Writes settings as a document. -/
def write (s : Settings) : String := s.toJson.text

end Settings

end CommandBridge
