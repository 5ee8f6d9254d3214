import CommandBridge.Error

/-!
# Regions and write permissions

The address space is divided into named regions, each with a permission for writing. Addresses in
no region are read-only; reading is allowed everywhere.

* `checkRegions` accepts a list of regions if none is inverted and no two share an address. After
  sorting by first address it is enough to look at neighbours.
* A `RegionMap` is such a list, sorted. `RegionMap.regionAt` skips the regions that end below an
  address and looks at the next one only.
* `RegionMap.checkWrite` decides about a whole range: its size and place first, then its
  addresses from the lowest one on. It is stated over any monad, because whether a session has a
  feature is something only the machine can say, and asking it is an action. Over the identity
  monad it is an ordinary function of a predicate.
-/

namespace CommandBridge

/-- A property of the loaded session that some writes depend on. -/
inductive Feature
  /-- The session has battery-backed memory. -/
  | batteryBacked
  deriving DecidableEq, Repr

/-- When a region may be written. -/
inductive Permission
  /-- Never. -/
  | readOnly
  /-- Always. -/
  | readWrite
  /-- As long as the session has a feature. -/
  | conditional (needs : Feature)
  deriving DecidableEq, Repr

/-- A named range of addresses with a permission. -/
structure Region where
  name : String
  first : Address
  /-- The highest address; it belongs to the region. -/
  last : Address
  /-- When the region may be written. -/
  permission : Permission
  deriving DecidableEq, Repr

namespace Region

/-- Whether an address lies in the region. -/
def contains (r : Region) (a : Address) : Bool :=
  r.first.toNat ≤ a.toNat && a.toNat ≤ r.last.toNat

/-- Whether the region ends before it starts. -/
def isInverted (r : Region) : Bool := r.last.toNat < r.first.toNat

end Region

/-! ### Lists of regions -/

/-- What is wrong with a list of regions. -/
inductive RegionError
  /-- A region ends before it starts. -/
  | inverted (name : String) (first last : Address)
  /-- Two regions share an address. -/
  | overlapping (lower upper : String)
  deriving DecidableEq, Repr

/-- The wording of a region error. -/
def RegionError.message : RegionError → String
  | inverted name first last =>
    "region '" ++ name ++ "' ends at " ++ last.text ++ " before it starts at " ++ first.text
  | overlapping lower upper => "regions '" ++ lower ++ "' and '" ++ upper ++ "' overlap"

/-- The regions by first address; regions with the same one stay in their order. -/
def sortRegions (regions : List Region) : List Region :=
  regions.mergeSort fun r s => r.first.toNat ≤ s.first.toNat

/-- The first two neighbours of which the second starts before the first has ended. -/
def firstOverlap : List Region → Option (Region × Region)
  | r :: s :: rest =>
    if s.first.toNat ≤ r.last.toNat then some (r, s) else firstOverlap (s :: rest)
  | _ => none

/-- Refuses a list with an inverted region, and then one with two overlapping regions. -/
def checkRegions (regions : List Region) : Except RegionError Unit :=
  match regions.find? Region.isInverted with
  | some r => .error (.inverted r.name r.first r.last)
  | none =>
    match firstOverlap (sortRegions regions) with
    | some (r, s) => .error (.overlapping r.name s.name)
    | none => .ok ()

/-! ### Maps of regions -/

/-- A map from addresses to permissions. -/
structure RegionMap where
  /-- The regions, sorted by first address and disjoint. -/
  regions : List Region
  deriving DecidableEq, Repr

/-- Refuses a range without bytes, one with too many bytes and one that leaves the address
space. -/
def checkRange (start : Address) (size : Nat) : Except Misuse Unit :=
  if size = 0 then .error .emptyRange
  else if maxRangeSize < size then .error (.longRange size)
  else if Address.spaceSize < start.toNat + size then .error (.rangeBeyondSpace start size)
  else .ok ()

/-- Whether a permission allows writing, given an answer to the question for a feature. -/
def Permission.allows {m : Type → Type} [Monad m] (has : Feature → m Bool) :
    Permission → m Bool
  | readOnly => pure false
  | readWrite => pure true
  | conditional needs => has needs

namespace RegionMap

/-- The map without regions, in which everything is read-only. -/
def empty : RegionMap := ⟨[]⟩

/-- The map of a list of regions, if the list is acceptable. -/
def ofRegions (regions : List Region) : Except RegionError RegionMap :=
  (checkRegions regions).map fun _ => ⟨sortRegions regions⟩

/-- The region in which an address lies. -/
def regionAt (map : RegionMap) (a : Address) : Option Region :=
  (map.regions.dropWhile fun r => r.last.toNat < a.toNat).head?.filter (·.contains a)

/-- The permission of an address. -/
def permission (map : RegionMap) (a : Address) : Permission :=
  match map.regionAt a with
  | some r => r.permission
  | none => .readOnly

/-- The first address of a list that may not be written. -/
def firstDenied {m : Type → Type} [Monad m] (map : RegionMap) (has : Feature → m Bool) :
    List Address → m (Option Address)
  | [] => pure none
  | a :: rest => do
    if ← (map.permission a).allows has then map.firstDenied has rest else pure (some a)

/-- Decides whether a range may be written. -/
def checkWrite {m : Type → Type} [Monad m] (map : RegionMap) (start : Address) (size : Nat)
    (has : Feature → m Bool) : m (Except CommandError Unit) :=
  match checkRange start size with
  | .error why => pure (.error (.invalidArgument why))
  | .ok () => do
    match ← map.firstDenied has (Address.range start size) with
    | some a => pure (.error (.permissionDenied a))
    | none => pure (.ok ())

/-- Refuses writes that no session could ever make: every feature counts as present. -/
def checkStatic (map : RegionMap) (start : Address) (size : Nat) : Except CommandError Unit :=
  Id.run (map.checkWrite start size fun _ => pure true)

end RegionMap

end CommandBridge
