import CommandBridge.Proofs.Session.Simulation
import CommandBridge.Scripted.Machine

/-!
# Memory as a store

A `Store` is a flat memory with a map of save slots and nothing else: no queue, ticks, overlays or
counts. `Store.Rules` fixes which addresses may be written and how things are scripted to fail, and
`Rules.serve` says what a store answers to a request about memory or slots (`StoreOp`).

A session around a scripted machine serves these requests as the store does that its machine holds
(`Session.Holds.serve`), and all other requests leave the store alone (`Session.keeps_holds`). So
does everything else that happens to the machine: frames, steps and reads, since reads are made
under inspection.
-/

namespace CommandBridge

open CommandBridge.Action

/-- A flat memory with save slots. -/
structure Store where
  memory : MemoryImage
  slots : UInt8 → Option MemoryImage

/-- What a store is asked to do. -/
inductive StoreOp
  | readByte (address : Address)
  | access (op : MemoryOp)
  | batch (ops : List MemoryOp)
  | save (slot : UInt8)
  | load (slot : UInt8)

/-- What a request asks of a store, if it is about memory or slots. -/
def Request.storeOp? : Request → Option StoreOp
  | .readByte a => some (.readByte a)
  | .readRange start size => some (.access (.read start size))
  | .writeByte a value => some (.access (.write a [value]))
  | .writeRange start data => some (.access (.write start data))
  | .batch ops => some (.batch ops)
  | .saveState slot => some (.save slot)
  | .loadState slot => some (.load slot)
  | _ => none

namespace Store

/-- What never changes about a store. -/
structure Rules where
  regions : RegionMap
  loaded : Bool
  battery : Bool
  faults : Faults

namespace Rules

/-! ### What a store answers -/

def allows (rules : Rules) (a : Address) : Bool :=
  match rules.regions.permission a with
  | .readOnly => false
  | .readWrite => true
  | .conditional .batteryBacked => rules.battery

def readByte (rules : Rules) (a : Address) : Action Store UInt8 := Action.ask fun s =>
  if rules.faults.panicOnRead = some a then
    .error (.text ("scripted panic reading " ++ a.text))
  else .ok (s.memory.get a)

def writeByte (rules : Rules) (a : Address) (value : UInt8) : Action Store Unit := fun s =>
  if rules.faults.panicOnWrite = some a then (.error (rules.faults.payload "poke"), s)
  else (.ok (), { s with memory := s.memory.set a value })

/-- Writes bytes one after the other, up to the first one that panics. -/
def write (rules : Rules) : List (Address × UInt8) → Action Store Unit
  | [] => pure ()
  | (a, value) :: rest => do
    rules.writeByte a value
    rules.write rest

/-- Reads or writes a range. A range that is not wholly writable is not written at all. -/
def access (rules : Rules) : MemoryOp → Action Store (Outcome AccessReply)
  | .read start size =>
    match checkRange start size with
    | .error why => pure (.error (.invalidArgument why))
    | .ok () => do
      let data ← (Address.range start size).mapM rules.readByte
      pure (.ok (.bytes data))
  | .write start data =>
    match checkRange start data.length with
    | .error why => pure (.error (.invalidArgument why))
    | .ok () =>
      match (Address.range start data.length).find? fun a => !rules.allows a with
      | some a => pure (.error (.permissionDenied a))
      | none => do
        rules.write ((Address.range start data.length).zip data)
        pure (.ok (.written start data.length))

def save (rules : Rules) (slot : UInt8) : Action Store (Except MachineError Unit) :=
  match rules.faults.slots with
  | .working => fun s =>
    (.ok (.ok ()),
      { s with slots := fun other => if slot = other then some s.memory else s.slots other })
  | .unsupported => pure (.error savingUnsupported)
  | .failing error => pure (.error error)

def load (rules : Rules) (slot : UInt8) : Action Store (Except MachineError Unit) :=
  match rules.faults.slots with
  | .working => fun s =>
    match s.slots slot with
    | some image => (.ok (.ok ()), { s with memory := image })
    | none => (.ok (.error (.emptySlot slot)), s)
  | .unsupported => pure (.error loadingUnsupported)
  | .failing error => pure (.error error)

/-- What is answered to a request to save or load. -/
def slotReply (slot : UInt8) : Except MachineError Unit → Outcome Reply
  | .ok () => .ok (.slot slot)
  | .error e => .error (.ofMachine e)

/-- What a store does for an operation. In a batch it does one operation after the other. -/
def answer (rules : Rules) : StoreOp → Action Store (Outcome Reply)
  | .readByte a => do
    let value ← rules.readByte a
    pure (.ok (.byte value))
  | .access op => do
    let outcome ← rules.access op
    pure (outcome.map .access)
  | .batch ops => do
    let outcomes ← ops.mapM rules.access
    pure (.ok (.batch outcomes))
  | .save slot => do
    let answer ← rules.save slot
    pure (slotReply slot answer)
  | .load slot => do
    let answer ← rules.load slot
    pure (slotReply slot answer)

/-- The outcome of an operation, and the store that it leaves. -/
def serve (rules : Rules) (op : StoreOp) (s : Store) : Outcome Reply × Store :=
  if rules.loaded then
    let r := (rules.answer op).run s
    (outcomeOf r.1, r.2)
  else (.error (.preconditionUnmet .noSession), s)

/-- Operations that are applied one after the other: each with its outcome, and the store in the
end. -/
def serveAll (rules : Rules) : List StoreOp → Store → List (StoreOp × Outcome Reply) × Store
  | [], s => ([], s)
  | op :: rest, s =>
    let r := rules.serve op s
    let rs := rules.serveAll rest r.2
    ((op, r.1) :: rs.1, rs.2)

theorem serveAll_append (rules : Rules) (ops more : List StoreOp) (s : Store) :
    rules.serveAll (ops ++ more) s =
      ((rules.serveAll ops s).1 ++ (rules.serveAll more (rules.serveAll ops s).2).1,
        (rules.serveAll more (rules.serveAll ops s).2).2) := by
  induction ops generalizing s with
  | nil => rfl
  | cons op rest ih => simp [serveAll, ih]

/-- The first operations do not depend on the ones that come later. -/
theorem serveAll_prefix (rules : Rules) {ops more : List StoreOp} (h : ops <+: more) (s : Store) :
    (rules.serveAll ops s).1 <+: (rules.serveAll more s).1 := by
  obtain ⟨rest, rfl⟩ := h
  rw [serveAll_append]
  exact List.prefix_append _ _

end Rules

end Store

/-! ### The store of a scripted machine -/

open Store

namespace Scripted

/-- The memory and the slots of a machine. -/
def store (m : Scripted) : Store := ⟨m.memory, m.snapshot⟩

/-- The rules for the store of a machine, given the regions of the session. -/
def rules (m : Scripted) (regions : RegionMap) : Rules := ⟨regions, m.loaded, m.battery, m.faults⟩

/-- The machine holds the store, and its script is that of the rules. -/
structure Holds (rules : Rules) (m : Scripted) (s : Store) : Prop where
  store_eq : m.store = s
  loaded_eq : m.loaded = rules.loaded
  battery_eq : m.battery = rules.battery
  faults_eq : m.faults = rules.faults

namespace Holds

variable {rules : Rules} {m : Scripted} {s : Store}

theorem memory_eq (h : Holds rules m s) : m.memory = s.memory := congrArg Store.memory h.store_eq

theorem snapshot_eq (h : Holds rules m s) (slot : UInt8) : m.snapshot slot = s.slots slot :=
  congrFun (congrArg Store.slots h.store_eq) slot

/-- What does not touch memory, slots and script leaves the store alone. -/
theorem congr (h : Holds rules m s) {m' : Scripted} (hstore : m'.store = m.store)
    (hloaded : m'.loaded = m.loaded) (hbattery : m'.battery = m.battery)
    (hfaults : m'.faults = m.faults) : Holds rules m' s :=
  ⟨hstore.trans h.store_eq, hloaded.trans h.loaded_eq, hbattery.trans h.battery_eq,
    hfaults.trans h.faults_eq⟩

/-! ### Reads -/

/-- Under inspection a read answers with the byte and changes nothing of the store. -/
theorem alike_peek (a : Address) :
    Action.Alike (fun m s => Holds rules m s ∧ m.inspection = true) (Scripted.peek a)
      (rules.readByte a) := by
  rintro m s ⟨h, hinspection⟩
  have hfaults := h.faults_eq
  rw [Action.run, Scripted.peek, Rules.readByte, run_ask, ← hfaults, ← h.memory_eq]
  by_cases hpanic : m.faults.panicOnRead = some a
  · rw [if_pos hpanic, if_pos hpanic]
    exact ⟨rfl, h, hinspection⟩
  · rw [if_neg hpanic, if_neg hpanic, if_pos hinspection]
    exact ⟨rfl, h.congr rfl rfl rfl rfl, hinspection⟩

theorem alike_peekAll (addresses : List Address) :
    Action.Alike (fun m s => Holds rules m s ∧ m.inspection = true) (peekAll addresses)
      (addresses.mapM rules.readByte) := by
  induction addresses with
  | nil => exact .pure _
  | cons a rest ih =>
    rw [List.mapM_cons]
    exact (alike_peek a).bind fun _ => ih.bind fun _ => .pure _

/-- The inspection flag is raised and lowered again without the store noticing. -/
theorem alike_inspecting {α : Type} {x : Action Scripted α} {y : Action Store α}
    (h : Action.Alike (fun m s => Holds rules m s ∧ m.inspection = true) x y) :
    Action.Alike (Holds rules) (inspecting x) y := by
  intro m s hm
  obtain ⟨hanswer, hafter, -⟩ := h { m with inspection := true } s ⟨hm.congr rfl rfl rfl rfl, rfl⟩
  exact ⟨hanswer, hafter.congr rfl rfl rfl rfl⟩

/-! ### Writes -/

theorem alike_allows (a : Address) :
    Action.Alike (Holds rules)
      ((rules.regions.permission a).allows (Machine.hasFeature : Feature → Action Scripted Bool))
      (pure (rules.allows a) : Action Store Bool) := by
  rw [Rules.allows]
  cases rules.regions.permission a with
  | readOnly => exact .pure _
  | readWrite => exact .pure _
  | conditional needs =>
    cases needs
    intro m s h
    exact ⟨congrArg Except.ok h.battery_eq, h⟩

theorem alike_firstDenied (addresses : List Address) :
    Action.Alike (Holds rules)
      (rules.regions.firstDenied (Machine.hasFeature : Feature → Action Scripted Bool) addresses)
      (pure (addresses.find? fun a => !rules.allows a) : Action Store (Option Address)) := by
  induction addresses with
  | nil => exact .pure _
  | cons a rest ih =>
    refine (alike_allows a).bind_pure ?_
    rw [List.find?_cons]
    cases rules.allows a with
    | true => exact ih
    | false => exact .pure _

theorem alike_poke (a : Address) (value : UInt8) :
    Action.Alike (Holds rules) (Scripted.poke a value) (rules.writeByte a value) := by
  intro m s h
  rw [Action.run, Action.run, Scripted.poke, Rules.writeByte, ← h.faults_eq]
  by_cases hpanic : m.faults.panicOnWrite = some a
  · rw [if_pos hpanic, if_pos hpanic]
    exact ⟨rfl, h⟩
  · rw [if_neg hpanic, if_neg hpanic]
    refine ⟨rfl, ?_, h.loaded_eq, h.battery_eq, h.faults_eq⟩
    rw [← h.store_eq]
    rfl

theorem alike_pokeFrom (start : Address) (offset : Nat) (data : List UInt8) :
    Action.Alike (Holds rules) (pokeFrom start offset data)
      (rules.write (((List.range' offset data.length).map fun i =>
        Address.ofNat (start.toNat + i)).zip data)) := by
  induction data generalizing offset with
  | nil => exact .pure _
  | cons value rest ih => exact (alike_poke _ value).bind fun _ => ih (offset + 1)

theorem alike_perform (op : MemoryOp) :
    Action.Alike (Holds rules) (op.perform rules.regions) (rules.access op) := by
  cases op with
  | read start size =>
    rw [MemoryOp.perform, readRange, Rules.access]
    cases checkRange start size with
    | error why => exact .pure _
    | ok _ =>
      rw [bind_assoc]
      exact (alike_inspecting (alike_peekAll _)).bind fun _ => .pure _
  | write start data =>
    rw [MemoryOp.perform, writeRange, RegionMap.checkWrite, Rules.access]
    cases checkRange start data.length with
    | error why => exact .pure _
    | ok _ =>
      dsimp only
      rw [bind_assoc, bind_assoc]
      refine (alike_firstDenied _).bind_pure ?_
      cases (Address.range start data.length).find? fun a => !rules.allows a with
      | some a => exact .pure _
      | none =>
        have hpoke : Action.Alike (Holds rules) (pokeFrom start 0 data) _ :=
          alike_pokeFrom start 0 data
        rw [← List.range_eq_range'] at hpoke
        simp only [pure_bind, bind_assoc]
        exact hpoke.bind fun _ => .pure _

theorem alike_performAll (ops : List MemoryOp) :
    Action.Alike (Holds rules) (performAll rules.regions ops) (ops.mapM rules.access) := by
  induction ops with
  | nil => exact .pure _
  | cons op rest ih =>
    rw [List.mapM_cons]
    exact (alike_perform op).bind fun _ => ih.bind fun _ => .pure _

/-! ### Slots -/

theorem alike_saveState (slot : UInt8) :
    Action.Alike (Holds rules) (Scripted.saveState slot) (rules.save slot) := by
  intro m s h
  rw [Action.run, Action.run, Scripted.saveState, Rules.save, ← h.faults_eq]
  cases m.faults.slots with
  | working =>
    refine ⟨rfl, ?_, h.loaded_eq, h.battery_eq, h.faults_eq⟩
    -- The new snapshot is in its slot, and the other slots are as before.
    have hslots : snapshot { m with slots := m.slots.set slot.toFin (some m.memory) } =
        fun other => if slot = other then some m.memory else m.snapshot other := by
      funext other
      have hsame : slot.toFin.val = other.toFin.val ↔ slot = other := UInt8.toNat_inj
      simp only [snapshot, Fin.getElem_fin, Vector.getElem_set, hsame]
    rw [← h.store_eq, store, hslots]
    rfl
  | unsupported => exact ⟨rfl, h⟩
  | failing error => exact ⟨rfl, h⟩

theorem alike_loadState (slot : UInt8) :
    Action.Alike (Holds rules) (Scripted.loadState slot) (rules.load slot) := by
  intro m s h
  rw [Action.run, Action.run, Scripted.loadState, Rules.load, ← h.faults_eq]
  cases m.faults.slots with
  | working =>
    dsimp only
    rw [← h.snapshot_eq]
    cases m.snapshot slot with
    | none => exact ⟨rfl, h⟩
    | some image =>
      refine ⟨rfl, ?_, h.loaded_eq, h.battery_eq, h.faults_eq⟩
      rw [← h.store_eq]
      rfl
  | unsupported => exact ⟨rfl, h⟩
  | failing error => exact ⟨rfl, h⟩

end Holds

end Scripted

/-! ### The store of a session -/

namespace Session

/-- The machine of the session holds the store, and the rules are those of the session. -/
structure Holds (rules : Rules) (s : Session Scripted) (t : Store) : Prop where
  regions_eq : s.regions = rules.regions
  machine : s.machine.Holds rules t

variable {rules : Rules} {s : Session Scripted} {t : Store}

theorem alike_store {α : Type} {x : Action Scripted α} {y : Action Store α}
    (h : Action.Alike (Scripted.Holds rules) x y) :
    Action.Alike (Holds rules) (onMachine x) y := by
  intro s t hst
  obtain ⟨hanswer, hafter⟩ := h _ _ hst.machine
  exact ⟨hanswer, hst.regions_eq, hafter⟩

theorem alike_useStoreSlot {slot : UInt8} {x : Action Scripted (Except MachineError Unit)}
    {y : Action Store (Except MachineError Unit)} (h : Action.Alike (Scripted.Holds rules) x y) :
    Action.Alike (Holds rules) (useSlot slot x) (do
      let answer ← y
      pure (Rules.slotReply slot answer)) := by
  refine (alike_store h).bind fun answer => ?_
  cases answer <;> exact .pure _

/-- One case for each operation. -/
theorem alike_answer {request : Request} {op : StoreOp} (hop : request.storeOp? = some op) :
    Action.Alike (Holds rules) (respond request) (rules.answer op) := by
  have haccess : ∀ op, Action.Alike (Holds rules) (access op) (rules.answer (.access op)) := by
    refine fun op => .current_bind_left fun s t h => ?_
    rw [h.regions_eq]
    exact (alike_store (Scripted.Holds.alike_perform op)).bind fun _ => .pure _
  cases request with
  | readByte a =>
    cases hop
    exact (alike_store (Scripted.Holds.alike_inspecting
      (Scripted.Holds.alike_peek a))).bind fun _ => .pure _
  | readRange start size => cases hop; exact haccess _
  | writeByte a value => cases hop; exact haccess _
  | writeRange start data => cases hop; exact haccess _
  | batch ops =>
    cases hop
    refine .current_bind_left fun s t h => ?_
    rw [h.regions_eq]
    exact (alike_store (Scripted.Holds.alike_performAll ops)).bind fun _ => .pure _
  | saveState slot => cases hop; exact alike_useStoreSlot (Scripted.Holds.alike_saveState slot)
  | loadState slot => cases hop; exact alike_useStoreSlot (Scripted.Holds.alike_loadState slot)
  | _ => cases hop

/-- A request about memory or slots has the outcome that the store says, and leaves the store that
the store says. -/
theorem Holds.serve (h : s.Holds rules t) {request : Request} {op : StoreOp}
    (hop : request.storeOp? = some op) :
    outcomeOf ((handle request).run s).1 = (rules.serve op t).1 ∧
      ((handle request).run s).2.Holds rules (rules.serve op t).2 := by
  have hneeds : request.needsSession = true := by
    cases request with
    | _ => first | rfl | cases hop
  have hloaded : (onMachine Machine.isLoaded).run s = (.ok rules.loaded, s) := by
    rw [← h.machine.loaded_eq]
    rfl
  rw [handle, if_pos hneeds, run_bind_of_ok hloaded, Rules.serve]
  cases rules.loaded with
  | true =>
    obtain ⟨hanswer, hafter⟩ := alike_answer hop s t h
    exact ⟨congrArg outcomeOf hanswer, hafter⟩
  | false => exact ⟨rfl, h⟩

theorem keptByOverlays_holds : KeptByOverlays fun s => Holds rules s t :=
  fun _ _ h _ => ⟨h.regions_eq, h.machine⟩

theorem keeps_holds_rawInputs (channels : List Channel) :
    Keeps (fun s => Holds rules s t) (onMachine (rawInputs channels)) :=
  .onPart _ fun s h => ⟨h.regions_eq,
    Scripted.keeps_rawInputs (P := fun m => m.Holds rules t) channels s.machine h.machine⟩

/-- Any other request leaves the store alone. -/
theorem keeps_holds {request : Request} (hop : request.storeOp? = none) :
    Keeps (fun s => Holds rules s t) (handle request) := by
  have hloaded : Keeps (fun s => Holds rules s t) (onMachine Machine.isLoaded) := fun _ h => h
  have hrespond : Keeps (fun s => Holds rules s t) (respond request) := by
    cases request with
    | setOverlay c set clear hold => exact keeps_place keptByOverlays_holds c set clear hold _
    | clearOverlay c buttons => exact keeps_clearOverlay keptByOverlays_holds c buttons
    | setState c buttons hold => exact keeps_place keptByOverlays_holds c buttons .none hold _
    | inputStatus =>
      exact .current_bind fun s h => (keeps_holds_rawInputs _).bind (fun _ => .pure _) s h
    | pause => exact fun _ h => ⟨h.regions_eq, h.machine⟩
    | resume => exact fun _ h => ⟨h.regions_eq, h.machine⟩
    | status =>
      have hbattery : Keeps (fun s => Holds rules s t)
          (onMachine (Machine.hasFeature .batteryBacked)) := fun _ h => h
      exact .current_bind fun s h =>
        hloaded.bind (fun _ => hbattery.bind fun _ => .pure _) s h
    | _ => cases hop
  rw [handle]
  split
  · refine hloaded.bind fun loaded => ?_
    cases loaded with
    | true => exact hrespond
    | false => exact .pure _
  · exact hrespond

theorem Holds.nextFrame (h : s.Holds rules t) : (nextFrame.run s).2.Holds rules t :=
  keeps_nextFrame keeps_holds_rawInputs s h

/-- A step touches neither memory nor slots, even if it fails. -/
theorem Holds.step (h : s.Holds rules t) (frame : InputFrame) :
    (s.step frame).2.Holds rules t := by
  refine ⟨h.regions_eq, ?_⟩
  show Scripted.Holds rules ((Scripted.step frame).run s.machine).2 t
  rw [Action.run, Scripted.step]
  split
  · exact h.machine
  · exact h.machine.congr rfl rfl rfl rfl

end Session

end CommandBridge
