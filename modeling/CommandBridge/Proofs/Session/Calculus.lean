import CommandBridge.Proofs.Input.Masks
import CommandBridge.Scripted.Machine
import CommandBridge.Session.Handler

/-!
# Reasoning about actions and handlers

Handlers are written in the monad `Action`, and a proof about one never looks into the monad.
It uses one of two things:

* `Action.run_bind_eq_ok_iff` takes an action that has answered apart into its parts, each of
  which has answered;
* `Action.Keeps P` says that an action keeps the property `P` of the state, however it ends. The
  `Keeps` lemmas follow the way actions are put together, so `P` has to be checked only where
  the state is really changed.

For `Session.handle` that comes down to three changes: of the machine, of the pause flag, and of
the overlays (`Session.keeps_handle`). A request is served, or it is turned away or cut short
before its handler proper has begun (`Session.handle_cases`).
-/

namespace CommandBridge

namespace Action

variable {σ τ α β : Type}

/-! ### Answers -/

theorem run_bind_eq_ok_iff {x : Action σ α} {f : α → Action σ β} {s s' : σ} {b : β} :
    (x >>= f).run s = (.ok b, s') ↔
      ∃ a t, x.run s = (.ok a, t) ∧ (f a).run t = (.ok b, s') := by
  rcases h : x.run s with ⟨p | a, t⟩
  · rw [run_bind_of_error h]
    simp
  · rw [run_bind_of_ok h]
    constructor
    · intro hf
      exact ⟨a, t, rfl, hf⟩
    · rintro ⟨_, _, ⟨⟩, hf⟩
      exact hf

/-- An answer that is only rewritten afterwards. -/
theorem run_bind_pure (x : Action σ α) (f : α → β) (s : σ) :
    (x >>= fun a => pure (f a)).run s = ((x.run s).1.map f, (x.run s).2) := by
  rcases h : x.run s with ⟨p | a, t⟩
  · exact run_bind_of_error h
  · exact run_bind_of_ok h

/-! ### Properties that an action keeps -/

/-- However the action ends, the property holds after it if it held before. -/
def Keeps (P : σ → Prop) (x : Action σ α) : Prop := ∀ s, P s → P (x.run s).2

variable {P : σ → Prop}

theorem Keeps.pure (a : α) : Keeps P (Pure.pure a : Action σ α) := fun _ hs => hs

theorem Keeps.bind_at {x : Action σ α} {f : α → Action σ β} {s : σ} (hx : P (x.run s).2)
    (hf : ∀ a, Keeps P (f a)) : P ((x >>= f).run s).2 := by
  rcases h : x.run s with ⟨p | a, t⟩
  · rw [run_bind_of_error h]
    rwa [h] at hx
  · rw [run_bind_of_ok h]
    rw [h] at hx
    exact hf a t hx

theorem Keeps.bind {x : Action σ α} {f : α → Action σ β} (hx : Keeps P x)
    (hf : ∀ a, Keeps P (f a)) : Keeps P (x >>= f) :=
  fun s hs => Keeps.bind_at (hx s hs) hf

/-- An action that starts with a look at the state may use what holds of the state. -/
theorem Keeps.current_bind {f : σ → Action σ β} (hf : ∀ s, P s → P ((f s).run s).2) :
    Keeps P (Action.current >>= f) := fun s hs => hf s hs

theorem Keeps.onPart {get : τ → σ} {put : σ → τ → τ} {Q : τ → Prop} (x : Action σ α)
    (h : ∀ t, Q t → Q (put (x.run (get t)).2 t)) : Keeps Q (Action.onPart get put x) :=
  fun t ht => h t ht

end Action

open CommandBridge.Action

/-! ### Access to memory -/

section

variable {σ : Type} [Machine σ] {P Q : σ → Prop}

/-- A read under inspection keeps `P` if what it does meanwhile keeps `Q`. -/
theorem keeps_inspecting (hraise : ∀ m, P m → Q (Machine.setInspection true m))
    (hlower : ∀ m, Q m → P (Machine.setInspection false m)) {α : Type} {x : Action σ α}
    (hx : Keeps Q x) : Keeps P (inspecting x) :=
  fun m hm => hlower _ (hx _ (hraise m hm))

theorem keeps_peekAll (h : ∀ a, Keeps Q (Machine.peek a)) (addresses : List Address) :
    Keeps Q (peekAll addresses) := by
  induction addresses with
  | nil => exact .pure _
  | cons a rest ih => exact (h a).bind fun _ => ih.bind fun _ => .pure _

theorem keeps_readRange (hraise : ∀ m, P m → Q (Machine.setInspection true m))
    (hpeek : ∀ a, Keeps Q (Machine.peek a))
    (hlower : ∀ m, Q m → P (Machine.setInspection false m)) (start : Address) (size : Nat) :
    Keeps P (readRange start size) := by
  rw [readRange]
  cases checkRange start size with
  | error why => exact .pure _
  | ok _ => exact (keeps_inspecting hraise hlower (keeps_peekAll hpeek _)).bind fun _ => .pure _

theorem keeps_perform {map : RegionMap}
    (hread : ∀ start size, Keeps P (readRange start size))
    (hwrite : ∀ start data, Keeps P (writeRange map start data)) (op : MemoryOp) :
    Keeps P (op.perform map) := by
  cases op with
  | read start size => exact (hread start size).bind fun _ => .pure _
  | write start data => exact (hwrite start data).bind fun _ => .pure _

theorem keeps_performAll {map : RegionMap} (h : ∀ op : MemoryOp, Keeps P (op.perform map))
    (ops : List MemoryOp) : Keeps P (performAll map ops) := by
  induction ops with
  | nil => exact .pure _
  | cons op rest ih => exact (h op).bind fun _ => ih.bind fun _ => .pure _

end

/-- The channel whose overlay a request is about. -/
def Request.overlayChannel? : Request → Option Channel
  | .setOverlay c _ _ _ | .clearOverlay c _ | .setState c _ _ => some c
  | _ => none

namespace Session

variable {σ : Type}

theorem run_onMachine {α : Type} {x : Action σ α} {s : Session σ} {r : Except Panic α} {m : σ}
    (h : x.run s.machine = (r, m)) : (onMachine x).run s = (r, { s with machine := m }) := by
  rw [onMachine, run_onPart, h]

/-! ### Changes of the overlays -/

/-- The property survives every change of overlays that a handler may make. -/
def KeptByOverlays (P : Session σ → Prop) : Prop :=
  ∀ s overlays, P s → overlays.count = s.overlays.count → P { s with overlays := overlays }

theorem keeps_changeOverlay {P : Session σ → Prop} (h : KeptByOverlays P) {c : Channel}
    {change : Session σ → Except Misuse (Option Tick × OverlaySet)}
    (hcount : ∀ s lapse overlays, change s = .ok (lapse, overlays) →
      overlays.count = s.overlays.count) : Keeps P (changeOverlay c change) := by
  intro s hs
  rw [Action.run, changeOverlay]
  cases hchange : change s with
  | error why => exact hs
  | ok r => exact h s r.2 hs (hcount s r.1 r.2 hchange)

/-- What it takes to put an entry on a channel: the hold must have a duration, which is found out
first, and the channel must be configured. -/
theorem place_change_eq_ok {s : Session σ} {c : Channel} {set clear : Buttons}
    {hold : Option Hold} {f : Overlay → OverlayEntry → Overlay} {lapse : Option Tick}
    {overlays : OverlaySet} :
    (do let duration ← s.holdTicks hold
        s.overlays.place c set clear s.tick duration f) = .ok (lapse, overlays) ↔
      ∃ duration, s.holdTicks hold = .ok duration ∧ duration ≠ 0 ∧ c.index < s.overlays.count ∧
        (if (OverlayEntry.mk (s.tick.offset duration) set clear).isEmpty then none
          else some (s.tick.offset duration)) = lapse ∧
        s.overlays.modify c (f · ⟨s.tick.offset duration, set, clear⟩) = overlays := by
  cases hticks : s.holdTicks hold with
  | error why => simp [bind, Except.bind]
  | ok duration =>
    constructor
    · intro h
      exact ⟨duration, rfl, OverlaySet.place_eq_ok.mp h⟩
    · rintro ⟨_, ⟨⟩, h⟩
      exact OverlaySet.place_eq_ok.mpr h

/-- Clearing reports when something lapses next in what it leaves. -/
theorem clearOverlay_change_eq_ok {s : Session σ} {c : Channel} {buttons : Option Buttons}
    {lapse : Option Tick} {overlays : OverlaySet} :
    (do let overlays ← s.overlays.clearOverlay c buttons
        return ((overlays.channel? c).bind Overlay.nextLapse, overlays)) =
      (.ok (lapse, overlays) : Except Misuse _) ↔
      c.index < s.overlays.count ∧
        s.overlays.modify c (OverlaySet.cleared buttons) = overlays ∧
        (overlays.channel? c).bind Overlay.nextLapse = lapse := by
  cases hclear : s.overlays.clearOverlay c buttons with
  | error why =>
    have hnot : ¬ c.index < s.overlays.count := by
      intro hc
      rw [OverlaySet.clearOverlay_eq_ok.mpr ⟨hc, rfl⟩] at hclear
      cases hclear
    simp [hnot, bind, Except.bind]
  | ok left =>
    obtain ⟨hc, rfl⟩ := OverlaySet.clearOverlay_eq_ok.mp hclear
    simp only [bind, Except.bind, pure, Except.pure, Except.ok.injEq, Prod.mk.injEq, hc, true_and]
    constructor
    · rintro ⟨rfl, rfl⟩
      exact ⟨rfl, rfl⟩
    · rintro ⟨rfl, rfl⟩
      exact ⟨rfl, rfl⟩

/-- Both requests that hold buttons put an entry on a channel. -/
theorem keeps_place {P : Session σ → Prop} (h : KeptByOverlays P) (c : Channel)
    (set clear : Buttons) (hold : Option Hold) (f : Overlay → OverlayEntry → Overlay) :
    Keeps P (changeOverlay c fun s => do
      let duration ← s.holdTicks hold
      s.overlays.place c set clear s.tick duration f) := by
  refine keeps_changeOverlay h ?_
  intro s lapse overlays hchange
  obtain ⟨duration, -, -, -, -, rfl⟩ := place_change_eq_ok.mp hchange
  exact OverlaySet.count_modify _ _ _

theorem keeps_clearOverlay {P : Session σ → Prop} (h : KeptByOverlays P) (c : Channel)
    (buttons : Option Buttons) : Keeps P (clearOverlay c buttons) := by
  refine keeps_changeOverlay h ?_
  intro s lapse overlays hchange
  obtain ⟨-, rfl, -⟩ := clearOverlay_change_eq_ok.mp hchange
  exact OverlaySet.count_modify _ _ _

/-! ### Handlers -/

theorem keeps_useSlot {P : Session σ → Prop} {slot : UInt8}
    {x : Action σ (Except MachineError Unit)} (hx : Keeps P (onMachine x)) :
    Keeps P (useSlot slot x) := by
  refine hx.bind fun answer => ?_
  cases answer <;> exact .pure _

variable [Machine σ]

/-- The property survives whatever handlers do with the machine. -/
structure KeptByMachine (P : Session σ → Prop) : Prop where
  isLoaded : Keeps P (onMachine Machine.isLoaded)
  hasFeature : ∀ f, Keeps P (onMachine (Machine.hasFeature f))
  rawInputs : ∀ l, Keeps P (onMachine (rawInputs l))
  readByte : ∀ a, Keeps P (onMachine (readByte a))
  perform : ∀ op s, P s → P ((onMachine (MemoryOp.perform s.regions op)).run s).2
  performAll : ∀ ops s, P s → P ((onMachine (performAll s.regions ops)).run s).2
  saveState : ∀ slot, Keeps P (onMachine (Machine.saveState slot))
  loadState : ∀ slot, Keeps P (onMachine (Machine.loadState slot))

/-- A property that does not speak of the machine survives it. -/
theorem KeptByMachine.of_blind {P : Session σ → Prop}
    (h : ∀ s m, P s → P { s with machine := m }) : KeptByMachine P := by
  have hall : ∀ {α : Type} (x : Action σ α), Keeps P (onMachine x) :=
    fun x => .onPart x fun s hs => h s _ hs
  exact ⟨hall _, fun _ => hall _, fun _ => hall _, fun _ => hall _, fun _ s => hall _ s,
    fun _ s => hall _ s, fun _ => hall _, fun _ => hall _⟩

theorem keeps_access {P : Session σ → Prop} (h : KeptByMachine P) (op : MemoryOp) :
    Keeps P (access op) :=
  .current_bind fun s hs => Keeps.bind_at (h.perform op s hs) fun _ => .pure _

/-- One case for each request. -/
theorem keeps_respond {P : Session σ → Prop} (hmachine : KeptByMachine P)
    (hpause : ∀ s paused, P s → P { s with paused := paused }) (request : Request)
    (hoverlays : ∀ c, request.overlayChannel? = some c → KeptByOverlays P) :
    Keeps P (respond request) := by
  cases request with
  | readByte a => exact (hmachine.readByte a).bind fun _ => .pure _
  | readRange start size => exact keeps_access hmachine _
  | writeByte a value => exact keeps_access hmachine _
  | writeRange start data => exact keeps_access hmachine _
  | batch ops =>
    exact .current_bind fun s hs => Keeps.bind_at (hmachine.performAll _ s hs) fun _ => .pure _
  | setOverlay c set clear hold => exact keeps_place (hoverlays c rfl) c set clear hold _
  | clearOverlay c buttons => exact keeps_clearOverlay (hoverlays c rfl) c buttons
  | setState c buttons hold => exact keeps_place (hoverlays c rfl) c buttons Buttons.none hold _
  | inputStatus =>
    exact .current_bind fun s hs => Keeps.bind_at (hmachine.rawInputs _ s hs) fun _ => .pure _
  | pause => exact fun s hs => hpause s true hs
  | resume => exact fun s hs => hpause s false hs
  | status =>
    exact .current_bind fun s hs => Keeps.bind_at (hmachine.isLoaded s hs)
      fun _ => (hmachine.hasFeature _).bind fun _ => .pure _
  | saveState slot => exact keeps_useSlot (hmachine.saveState slot)
  | loadState slot => exact keeps_useSlot (hmachine.loadState slot)

theorem keeps_handle {P : Session σ → Prop} (hmachine : KeptByMachine P)
    (hpause : ∀ s paused, P s → P { s with paused := paused }) (request : Request)
    (hoverlays : ∀ c, request.overlayChannel? = some c → KeptByOverlays P) :
    Keeps P (handle request) := by
  have hrespond := keeps_respond hmachine hpause request hoverlays
  rw [handle]
  split
  · refine hmachine.isLoaded.bind fun loaded => ?_
    cases loaded with
    | true => exact hrespond
    | false => exact .pure _
  · exact hrespond

theorem keeps_rawInputs {P : σ → Prop} (h : ∀ c, Keeps P (Machine.rawInput c))
    (channels : List Channel) : Keeps P (rawInputs channels) := by
  induction channels with
  | nil => exact .pure _
  | cons c rest ih => exact (h c).bind fun _ => ih.bind fun _ => .pure _

theorem keeps_nextFrame {P : Session σ → Prop}
    (h : ∀ channels, Keeps P (onMachine (rawInputs channels))) : Keeps P nextFrame :=
  .current_bind fun s hs => Keeps.bind_at (h _ s hs) fun _ => .pure _

/-- The machine is in state `m` when the handler proper of a request begins: something is loaded,
if the request needs that. -/
def ServedAt (request : Request) (s : Session σ) (m : σ) : Prop :=
  if request.needsSession then (Machine.isLoaded : Action σ Bool).run s.machine = (.ok true, m)
  else m = s.machine

/-- A request is served, cut short by a panic of the question whether something is loaded, or
turned away. Before that nothing but the machine can have changed. -/
theorem handle_cases (request : Request) (s : Session σ) :
    ∃ m, (ServedAt request s m ∧
        (handle request).run s = (respond request).run { s with machine := m }) ∨
      (∃ p, (handle request).run s = (.error p, { s with machine := m })) ∨
      (handle request).run s =
        (.ok (.error (.preconditionUnmet .noSession)), { s with machine := m }) := by
  by_cases hneeds : request.needsSession = true
  · rw [handle, if_pos hneeds]
    rcases hloaded : (Machine.isLoaded : Action σ Bool).run s.machine with ⟨p | loaded, m⟩
    · exact ⟨m, .inr (.inl ⟨p, run_bind_of_error (run_onMachine hloaded)⟩)⟩
    · rw [run_bind_of_ok (run_onMachine hloaded)]
      cases loaded with
      | true => exact ⟨m, .inl ⟨by rw [ServedAt, if_pos hneeds, hloaded], rfl⟩⟩
      | false => exact ⟨m, .inr (.inr rfl)⟩
  · rw [handle, if_neg hneeds]
    exact ⟨s.machine, .inl ⟨by rw [ServedAt, if_neg hneeds], rfl⟩⟩

end Session

/-! ### Scripted machines -/

namespace Scripted

/-- The machines differ in nothing but memory, save slots, inspection flag and counts. -/
structure SameSetting (m n : Scripted) : Prop where
  loaded_eq : n.loaded = m.loaded
  battery_eq : n.battery = m.battery
  raw_eq : n.raw = m.raw
  frames_eq : n.frames = m.frames
  faults_eq : n.faults = m.faults

theorem SameSetting.refl (m : Scripted) : SameSetting m m := ⟨rfl, rfl, rfl, rfl, rfl⟩

theorem sameSetting_peek (a : Address) (m : Scripted) :
    SameSetting m ((Machine.peek a).run m).2 := by
  change SameSetting m (peek a m).2
  rw [peek]
  split
  · exact .refl m
  · dsimp only
    split
    · exact ⟨rfl, rfl, rfl, rfl, rfl⟩
    · split <;> exact ⟨rfl, rfl, rfl, rfl, rfl⟩

theorem sameSetting_poke (a : Address) (value : UInt8) (m : Scripted) :
    SameSetting m ((Machine.poke a value).run m).2 := by
  change SameSetting m (poke a value m).2
  rw [poke]
  split <;> exact ⟨rfl, rfl, rfl, rfl, rfl⟩

theorem sameSetting_saveState (slot : UInt8) (m : Scripted) :
    SameSetting m ((Machine.saveState slot).run m).2 := by
  change SameSetting m (saveState slot m).2
  rw [saveState]
  split <;> exact ⟨rfl, rfl, rfl, rfl, rfl⟩

theorem sameSetting_loadState (slot : UInt8) (m : Scripted) :
    SameSetting m ((Machine.loadState slot).run m).2 := by
  change SameSetting m (loadState slot m).2
  rw [loadState]
  split
  · split <;> exact ⟨rfl, rfl, rfl, rfl, rfl⟩
  · exact .refl m
  · exact .refl m

end Scripted

/-- Asking for input leaves a scripted machine as it is. -/
theorem Scripted.keeps_rawInputs {P : Scripted → Prop} (channels : List Channel) :
    Keeps P (Session.rawInputs channels) :=
  Session.keeps_rawInputs (fun _ _ h => h) channels

end CommandBridge
