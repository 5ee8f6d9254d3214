import CommandBridge.Proofs.Bridge.Opening
import CommandBridge.Proofs.Bridge.Simulation
import CommandBridge.Proofs.Memory.Writing
import CommandBridge.Proofs.Session.Recorded
import CommandBridge.Scripted.Machine

/-!
# Protected memory never changes

An address is protected if its permission does not allow writing: it is read-only, which includes
all addresses in no region, or it needs a battery that the session does not have. Commands never
write to protected addresses, and what they hold never changes.

The invariant (`Guarded`) has to say more than that, because restoring a snapshot replaces the
whole memory without any check: all snapshots hold the initial bytes at protected addresses, too.
Every snapshot was taken of a memory with the invariant, so this survives. Writes that a panic cuts
short are no exception, since each of their bytes goes to an address that was granted.
-/

namespace CommandBridge

open CommandBridge.Action

/-- The address may not be written in a session with or without a battery. -/
def RegionMap.Protected (map : RegionMap) (battery : Bool) (a : Address) : Prop :=
  match map.permission a with
  | .readOnly => True
  | .readWrite => False
  | .conditional .batteryBacked => battery = false

/-- A change from outside that leaves memory, snapshots and battery alone, such as new input. -/
def Scripted.Harmless (change : Scripted → Scripted) : Prop :=
  ∀ s, (change s).memory = s.memory ∧ (change s).slots = s.slots ∧ (change s).battery = s.battery

/-- Under inspection, reading a byte at most counts the read. -/
theorem Scripted.peek_of_inspection {s : Scripted} (a : Address) (h : s.inspection = true) :
    ((peek a).run s).2 = s ∨
      ((peek a).run s).2 = { s with inspectedReads := s.inspectedReads + 1 } := by
  rw [Action.run, peek]
  split
  · exact .inl rfl
  · exact .inr (by simp only [h])

/-- A memory image holds the initial bytes at all protected addresses. -/
def MemoryImage.Intact (map : RegionMap) (initial : Scripted) (image : MemoryImage) : Prop :=
  ∀ a, map.Protected initial.battery a → image.get a = initial.memory.get a

/-- Memory and snapshots are intact, and no write was issued to a protected address. -/
structure Guarded (map : RegionMap) (initial : Scripted) (r : Recorded Scripted) : Prop where
  battery_eq : r.machine.battery = initial.battery
  memory : r.machine.memory.Intact map initial
  slots : ∀ slot image, r.machine.snapshot slot = some image → image.Intact map initial
  writes : ∀ a ∈ r.writes, ¬ map.Protected initial.battery a

namespace Guarded

variable {map : RegionMap} {initial : Scripted} {r : Recorded Scripted}

/-- What does not touch memory, snapshots and battery does not touch the invariant. -/
theorem congr (h : Guarded map initial r) {m : Scripted} (hmemory : m.memory = r.machine.memory)
    (hslots : m.slots = r.machine.slots) (hbattery : m.battery = r.machine.battery) :
    Guarded map initial { r with machine := m } where
  battery_eq := hbattery.trans h.battery_eq
  memory := by
    rw [hmemory]
    exact h.memory
  slots slot image himage := by
    rw [Scripted.snapshot, hslots] at himage
    exact h.slots slot image himage
  writes := h.writes

theorem keeps_inside {α : Type} {x : Action Scripted α}
    (hx : ∀ m, (x.run m).2.memory = m.memory ∧ (x.run m).2.slots = m.slots ∧
      (x.run m).2.battery = m.battery) :
    Keeps (Guarded map initial) (Recorded.inside x) := by
  intro r h
  obtain ⟨hmemory, hslots, hbattery⟩ := hx r.machine
  exact h.congr hmemory hslots hbattery

/-- A step changes neither memory nor snapshots. -/
theorem keeps_step (frame : InputFrame) :
    Keeps (Guarded map initial) (Recorded.inside (Scripted.step frame)) := by
  refine keeps_inside fun m => ?_
  rw [Action.run, Scripted.step]
  split <;> exact ⟨rfl, rfl, rfl⟩

/-- Under inspection, reading changes nothing but counts. -/
theorem keeps_peek (a : Address) :
    Keeps (fun r => Guarded map initial r ∧ r.machine.inspection = true)
      (Recorded.inside (Scripted.peek a)) := by
  rintro r ⟨h, hinspection⟩
  rw [Recorded.inside, run_onPart]
  rcases Scripted.peek_of_inspection a hinspection with hrun | hrun
  · rw [hrun]
    exact ⟨h, hinspection⟩
  · rw [hrun]
    exact ⟨h.congr rfl rfl rfl, hinspection⟩

/-- Granted addresses are not protected. -/
theorem not_protected_of_granted (h : Guarded map initial r) {addresses : List Address}
    {r' : Recorded Scripted} (hgranted : Granted map addresses r r') :
    ∀ a ∈ addresses, ¬ map.Protected initial.battery a := by
  induction hgranted with
  | nil => exact fun a ha => absurd ha List.not_mem_nil
  | readWrite hpermission _ ih =>
    intro a ha
    rcases List.mem_cons.mp ha with rfl | ha
    · rw [RegionMap.Protected, hpermission]
      exact id
    · exact ih h a ha
  | @conditional a rest m asked m' needs hpermission hasked _ ih =>
    cases needs
    obtain ⟨hbattery, rfl⟩ := Prod.mk.inj hasked
    have hbattery' : m.machine.battery = true := Except.ok.inj hbattery
    intro b hb
    rcases List.mem_cons.mp hb with rfl | hb
    · rw [RegionMap.Protected, hpermission, ← h.battery_eq, hbattery']
      exact Bool.noConfusion
    · exact ih h b hb

/-- A write to an address that is not protected changes no byte that is. -/
theorem keeps_poke {a : Address} (ha : ¬ map.Protected initial.battery a) (value : UInt8) :
    Keeps (Guarded map initial) (Machine.poke a value : Action (Recorded Scripted) Unit) := by
  intro r h
  have hwrites : ∀ b ∈ r.writes ++ [a], ¬ map.Protected initial.battery b := by
    intro b hb
    rcases List.mem_append.mp hb with hb | hb
    · exact h.writes b hb
    · rw [List.mem_singleton.mp hb]
      exact ha
  have hrun : ((Machine.poke a value : Action (Recorded Scripted) Unit).run r).2 =
      ⟨((Scripted.poke a value).run r.machine).2, r.writes ++ [a]⟩ := rfl
  rw [hrun, Action.run, Scripted.poke]
  split
  · exact ⟨h.battery_eq, h.memory, h.slots, hwrites⟩
  · refine ⟨h.battery_eq, ?_, h.slots, hwrites⟩
    intro b hb
    have hne : a ≠ b := fun heq => ha (heq ▸ hb)
    rw [MemoryImage.get_set_of_ne _ hne]
    exact h.memory b hb

/-- A snapshot is taken of an intact memory. -/
theorem keeps_saveState (slot : UInt8) :
    Keeps (Guarded map initial) (Recorded.inside (Scripted.saveState slot)) := by
  intro r h
  rw [Recorded.inside, run_onPart, Action.run, Scripted.saveState]
  split
  · refine ⟨h.battery_eq, h.memory, ?_, h.writes⟩
    intro slot' image himage
    rw [Scripted.snapshot, Fin.getElem_fin, Vector.getElem_set] at himage
    split at himage
    · cases himage
      exact h.memory
    · exact h.slots slot' image himage
  · exact h
  · exact h

/-- A snapshot that is restored is intact. -/
theorem keeps_loadState (slot : UInt8) :
    Keeps (Guarded map initial) (Recorded.inside (Scripted.loadState slot)) := by
  intro r h
  rw [Recorded.inside, run_onPart, Action.run, Scripted.loadState]
  split
  · split
    case h_1 image himage => exact ⟨h.battery_eq, h.slots slot image himage, h.slots, h.writes⟩
    case h_2 => exact h
  · exact h
  · exact h

/-- The invariant survives everything that sessions do with their machine. -/
theorem keeps : Machine.Keeps map (Guarded map initial)
    fun r => Guarded map initial r ∧ r.machine.inspection = true where
  isLoaded := keeps_inside fun _ => ⟨rfl, rfl, rfl⟩
  hasFeature f := by
    cases f
    exact keeps_inside fun _ => ⟨rfl, rfl, rfl⟩
  rawInput c := keeps_inside fun _ => ⟨rfl, rfl, rfl⟩
  step := keeps_step
  raise _ h := ⟨h.congr rfl rfl rfl, rfl⟩
  peek := keeps_peek
  lower _ h := h.1.congr rfl rfl rfl
  writeRange start data := by
    refine keeps_writeRange ?_ ?_
    · intro f
      cases f
      exact keeps_inside fun _ => ⟨rfl, rfl, rfl⟩
    · intro m m' addresses hm hgranted a ha value
      exact keeps_poke (hm.not_protected_of_granted hgranted a ha) value
  saveState := keeps_saveState
  loadState := keeps_loadState

end Guarded

/-! ### Runs of bridges -/

/-- A change from outside of the machine inside. -/
def Recorded.Harmless (change : Recorded Scripted → Recorded Scripted) : Prop :=
  ∃ inner, Scripted.Harmless inner ∧ ∀ r, change r = { r with machine := inner r.machine }

/-- The bridge with a record of writes, which is empty as yet. -/
def Bridge.recorded {σ : Type} (b : Bridge σ) : Bridge (Recorded σ) where
  session := ⟨⟨b.session.machine, []⟩, b.session.overlays, b.session.tick, b.session.paused,
    b.session.regions, b.session.tickRate⟩
  intake := b.intake
  budget := b.budget

theorem Bridge.alike_recorded {σ : Type} (b : Bridge σ) :
    Bridge.Alike Recorded.Contains b.recorded b :=
  ⟨⟨rfl, rfl, rfl, rfl, rfl, rfl⟩, rfl, rfl⟩

namespace Reachable

variable {machine : Scripted} {settings : Settings} {b₀ : Bridge Scripted}

/-- Every run has a counterpart with a record. -/
theorem exists_recorded {s : Stage Scripted} (h : Reachable Scripted.Harmless b₀ s) :
    ∃ t, Reachable Recorded.Harmless b₀.recorded t ∧ Stage.Alike Recorded.Contains t s := by
  refine h.exists_alike Recorded.alike b₀.alike_recorded ?_
  intro inner hinner
  refine ⟨fun r => { r with machine := inner r.machine }, ⟨inner, hinner, fun _ => rfl⟩, ?_⟩
  rintro r _ rfl
  rfl

/-- A run with a record keeps memory and snapshots intact. -/
theorem guarded (hstart : Bridge.start machine settings = .ok b₀)
    (hslots : ∀ slot image, machine.snapshot slot = some image →
      image.Intact b₀.session.regions machine)
    {t : Stage (Recorded Scripted)} (h : Reachable Recorded.Harmless b₀.recorded t) :
    Guarded b₀.session.regions machine t.bridge.session.machine := by
  have hmachine : b₀.session.machine = machine := by
    obtain ⟨regions, -, -, rfl⟩ := Bridge.start_eq_ok.mp hstart
    rfl
  have hinvariant : SessionInvariant Recorded.Harmless fun _ (s : Session (Recorded Scripted)) =>
      s.regions = b₀.session.regions ∧ Guarded b₀.session.regions machine s.machine := by
    refine .of_machine Guarded.keeps ?_
    rintro change r ⟨inner, hinner, hchange⟩ hr
    obtain ⟨hmemory, hslots, hbattery⟩ := hinner r.machine
    rw [hchange]
    exact hr.congr hmemory hslots hbattery
  refine (h.session_invariant hinvariant ⟨rfl, ?_⟩).2
  simp only [Bridge.recorded, hmachine]
  exact ⟨rfl, fun _ _ => rfl, hslots, fun _ ha => absurd ha List.not_mem_nil⟩

/-- In every stage, memory and all snapshots hold the initial bytes at the protected addresses,
and of the writes that were issued on the way, none was to a protected address. -/
theorem protected_memory_intact (hstart : Bridge.start machine settings = .ok b₀)
    (hslots : ∀ slot image, machine.snapshot slot = some image →
      image.Intact b₀.session.regions machine) :
    (∀ s, Reachable Scripted.Harmless b₀ s →
      s.bridge.session.machine.memory.Intact b₀.session.regions machine ∧
      (∀ slot image, s.bridge.session.machine.snapshot slot = some image →
        image.Intact b₀.session.regions machine) ∧
      ∃ t, Reachable Recorded.Harmless b₀.recorded t ∧ Stage.Alike Recorded.Contains t s) ∧
    (∀ t, Reachable Recorded.Harmless b₀.recorded t →
      ∀ a ∈ t.bridge.session.machine.writes,
        ¬ b₀.session.regions.Protected machine.battery a) := by
  refine ⟨?_, ?_⟩
  · intro s hs
    obtain ⟨t, ht, halike⟩ := hs.exists_recorded
    have hguarded := ht.guarded hstart hslots
    have hsame : t.bridge.session.machine.machine = s.bridge.session.machine :=
      halike.bridge.session.machine
    rw [← hsame]
    exact ⟨hguarded.memory, hguarded.slots, t, ht, halike⟩
  · intro t ht
    exact (ht.guarded hstart hslots).writes

/-- One write to battery-backed memory and one to work memory, in a session without a battery. -/
theorem battery_memory_intact :
    let b := Bridge.standard (Scripted.fresh true false Faults.none)
    let first : Request := .writeByte (Address.ofNat 0x6000) 1
    let second : Request := .writeByte (Address.ofNat 0) 1
    let done := (Bridge.tick ((b.submit first).2.submit second).2).2
    let recorded := (Bridge.tick ((b.recorded.submit first).2.submit second).2).2
    recorded.session.machine.writes = [Address.ofNat 0] ∧
      Address.ofNat 0x6000 ∉ recorded.session.machine.writes ∧
      done.session.machine.memory.get (Address.ofNat 0x6000) = 0 := by
  have hprotected : (RegionMap.mk Settings.defaultRegions).Protected false (Address.ofNat 0x6000) :=
    rfl
  have hinitial : (Scripted.fresh true false Faults.none).memory.get (Address.ofNat 0x6000) = 0 := by
    rw [Scripted.fresh, MemoryImage.get_set_of_ne _ (by decide), MemoryImage.get_zeros]
  have hslots : ∀ slot image, (Scripted.fresh true false Faults.none).snapshot slot = some image →
      image.Intact ⟨Settings.defaultRegions⟩ (Scripted.fresh true false Faults.none) := by
    intro slot image himage
    simp [Scripted.snapshot, Scripted.fresh] at himage
  obtain ⟨hplain, hrecorded⟩ := protected_memory_intact (Bridge.start_standard _) hslots
  have hdone : Bridge.Run Scripted.Harmless
      (Bridge.standard (Scripted.fresh true false Faults.none)) _ _ :=
    ((Bridge.Run.opened.submit (.writeByte (Address.ofNat 0x6000) 1)).submit
      (.writeByte (Address.ofNat 0) 1)).tick
  have hwritten : Bridge.Run Recorded.Harmless
      (Bridge.standard (Scripted.fresh true false Faults.none)).recorded _ _ :=
    ((Bridge.Run.opened.submit (.writeByte (Address.ofNat 0x6000) 1)).submit
      (.writeByte (Address.ofNat 0) 1)).tick
  refine ⟨rfl, ?_, ?_⟩
  · exact fun ha => hrecorded _ hwritten.reachable _ ha hprotected
  · exact ((hplain _ hdone.reachable).1 _ hprotected).trans hinitial

end Reachable

end CommandBridge
