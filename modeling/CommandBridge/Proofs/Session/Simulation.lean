import CommandBridge.Proofs.Session.Calculus

/-!
# Machines that answer alike

A bridge sees of its machine only the answers. If two machines answer alike as long as their states
are related by `R` (`Machine.Alike R`), then so do two sessions around them: every request has the
same outcome, and every step the same effect (`Session.alike_handle`, `Session.alike_nextFrame`,
`Session.alike_step`).

`Action.Alike` is about two actions, one on each machine. Its rules follow the way actions are put
together, like those of `Action.Keeps`.
-/

namespace CommandBridge

namespace Action

variable {σ τ σ' τ' α β : Type} {R : σ → τ → Prop}

/-- Begun in related states, the actions answer alike, or panic alike, and end in related states. -/
def Alike (R : σ → τ → Prop) (x : Action σ α) (y : Action τ α) : Prop :=
  ∀ s t, R s t → (x.run s).1 = (y.run t).1 ∧ R (x.run s).2 (y.run t).2

theorem Alike.pure (a : α) : Alike R (Pure.pure a : Action σ α) (Pure.pure a : Action τ α) :=
  fun _ _ h => ⟨rfl, h⟩

theorem Alike.bind {x : Action σ α} {y : Action τ α} {f : α → Action σ β} {g : α → Action τ β}
    (hx : Alike R x y) (hf : ∀ a, Alike R (f a) (g a)) : Alike R (x >>= f) (y >>= g) := by
  intro s t h
  have hx := hx s t h
  rcases hs : x.run s with ⟨p | a, s'⟩
  · rcases ht : y.run t with ⟨q | b, t'⟩
    · rw [hs, ht] at hx
      obtain ⟨⟨⟩, hrelated⟩ := hx
      rw [run_bind_of_error hs, run_bind_of_error ht]
      exact ⟨rfl, hrelated⟩
    · rw [hs, ht] at hx
      cases hx.1
  · rcases ht : y.run t with ⟨q | b, t'⟩
    · rw [hs, ht] at hx
      cases hx.1
    · rw [hs, ht] at hx
      obtain ⟨⟨⟩, hrelated⟩ := hx
      rw [run_bind_of_ok hs, run_bind_of_ok ht]
      exact hf a s' t' hrelated

/-- An action whose answer is known in advance. -/
theorem Alike.bind_pure {x : Action σ α} {f : α → Action σ β} {y : Action τ β} {a : α}
    (hx : Alike R x (Pure.pure a)) (hf : Alike R (f a) y) : Alike R (x >>= f) y := by
  intro s t h
  obtain ⟨hanswer, hrelated⟩ := hx s t h
  have hs : x.run s = (.ok a, (x.run s).2) := Prod.ext hanswer rfl
  rw [run_bind_of_ok hs]
  exact hf _ t hrelated

/-- Actions that start with a look at the state. -/
theorem Alike.current_bind {f : σ → Action σ α} {g : τ → Action τ α}
    (h : ∀ s t, R s t → Alike R (f s) (g t)) :
    Alike R (Action.current >>= f) (Action.current >>= g) :=
  fun s t hst => h s t hst s t hst

/-- An action that starts with a look at the state, and one that does not. -/
theorem Alike.current_bind_left {f : σ → Action σ α} {y : Action τ α}
    (h : ∀ s t, R s t → Alike R (f s) y) : Alike R (Action.current >>= f) y :=
  fun s t hst => h s t hst s t hst

theorem Alike.onPart {Q : σ' → τ' → Prop} {get : σ' → σ} {put : σ → σ' → σ'} {get' : τ' → τ}
    {put' : τ → τ' → τ'} {x : Action σ α} {y : Action τ α} (hx : Alike R x y)
    (hget : ∀ s t, Q s t → R (get s) (get' t))
    (hput : ∀ m n s t, Q s t → R m n → Q (put m s) (put' n t)) :
    Alike Q (Action.onPart get put x) (Action.onPart get' put' y) := by
  intro s t h
  obtain ⟨hanswer, hrelated⟩ := hx _ _ (hget s t h)
  exact ⟨hanswer, hput _ _ s t h hrelated⟩

end Action

open CommandBridge.Action

variable {σ τ : Type} {R : σ → τ → Prop}

/-! ### Sessions -/

namespace Session

/-- Sessions that differ only in their machines, which are related. -/
structure Alike (R : σ → τ → Prop) (s : Session σ) (t : Session τ) : Prop where
  machine : R s.machine t.machine
  overlays_eq : s.overlays = t.overlays
  tick_eq : s.tick = t.tick
  paused_eq : s.paused = t.paused
  regions_eq : s.regions = t.regions
  tickRate_eq : s.tickRate = t.tickRate

theorem alike_onMachine {α : Type} {x : Action σ α} {y : Action τ α} (h : Action.Alike R x y) :
    Action.Alike (Alike R) (onMachine x) (onMachine y) :=
  h.onPart (fun _ _ hst => hst.machine) fun _ _ _ _ hst hmn =>
    ⟨hmn, hst.overlays_eq, hst.tick_eq, hst.paused_eq, hst.regions_eq, hst.tickRate_eq⟩

theorem alike_changeOverlay {c : Channel}
    {change : Session σ → Except Misuse (Option Tick × OverlaySet)}
    {change' : Session τ → Except Misuse (Option Tick × OverlaySet)}
    (h : ∀ s t, Alike R s t → change s = change' t) :
    Action.Alike (Alike R) (changeOverlay c change) (changeOverlay c change') := by
  intro s t hst
  rw [Action.run, Action.run, changeOverlay, changeOverlay, h s t hst, hst.tick_eq]
  cases change' t with
  | error why => exact ⟨rfl, hst⟩
  | ok r =>
    exact ⟨rfl, hst.machine, rfl, rfl, hst.paused_eq, hst.regions_eq, hst.tickRate_eq⟩

theorem alike_useSlot {slot : UInt8} {x : Action σ (Except MachineError Unit)}
    {y : Action τ (Except MachineError Unit)} (h : Action.Alike R x y) :
    Action.Alike (Alike R) (useSlot slot x) (useSlot slot y) := by
  refine (alike_onMachine h).bind fun answer => ?_
  cases answer <;> exact .pure _

theorem alike_holdTicks {s : Session σ} {t : Session τ} (h : Alike R s t) (hold : Option Hold) :
    s.holdTicks hold = t.holdTicks hold := by
  cases hold with
  | none => rfl
  | some hold => rw [holdTicks, holdTicks, h.tickRate_eq]

theorem alike_control (paused : Bool) :
    Action.Alike (Alike R) (control paused) (control paused) := by
  intro s t hst
  rw [Action.run, Action.run, control, control, hst.paused_eq]
  exact ⟨rfl, hst.machine, hst.overlays_eq, hst.tick_eq, rfl, hst.regions_eq, hst.tickRate_eq⟩

end Session

/-! ### Machines -/

variable [Machine σ] [Machine τ]

/-- Machines in related states answer alike and stay related. -/
structure Machine.Alike (R : σ → τ → Prop) : Prop where
  isLoaded : Action.Alike R (Machine.isLoaded : Action σ Bool) Machine.isLoaded
  hasFeature : ∀ f, Action.Alike R (Machine.hasFeature f : Action σ Bool) (Machine.hasFeature f)
  rawInput : ∀ c, Action.Alike R (Machine.rawInput c : Action σ Buttons) (Machine.rawInput c)
  step : ∀ frame, Action.Alike R (Machine.step frame : Action σ _) (Machine.step frame)
  peek : ∀ a, Action.Alike R (Machine.peek a : Action σ UInt8) (Machine.peek a)
  poke : ∀ a v, Action.Alike R (Machine.poke a v : Action σ Unit) (Machine.poke a v)
  setInspection : ∀ active m n, R m n →
    R (Machine.setInspection active m) (Machine.setInspection active n)
  saveState : ∀ slot, Action.Alike R (Machine.saveState slot : Action σ _) (Machine.saveState slot)
  loadState : ∀ slot, Action.Alike R (Machine.loadState slot : Action σ _) (Machine.loadState slot)

namespace Machine.Alike

theorem inspecting (h : Machine.Alike R) {α : Type} {x : Action σ α} {y : Action τ α}
    (hx : Action.Alike R x y) :
    Action.Alike R (CommandBridge.inspecting x) (CommandBridge.inspecting y) := by
  intro m n hmn
  obtain ⟨hanswer, hrelated⟩ := hx _ _ (h.setInspection true m n hmn)
  exact ⟨hanswer, h.setInspection false _ _ hrelated⟩

theorem peekAll (h : Machine.Alike R) (addresses : List Address) :
    Action.Alike R (CommandBridge.peekAll addresses) (CommandBridge.peekAll addresses) := by
  induction addresses with
  | nil => exact .pure _
  | cons a rest ih => exact (h.peek a).bind fun _ => ih.bind fun _ => .pure _

theorem pokeFrom (h : Machine.Alike R) (start : Address) (offset : Nat) (data : List UInt8) :
    Action.Alike R (CommandBridge.pokeFrom start offset data)
      (CommandBridge.pokeFrom start offset data) := by
  induction data generalizing offset with
  | nil => exact .pure _
  | cons value rest ih => exact (h.poke _ value).bind fun _ => ih _

theorem readRange (h : Machine.Alike R) (start : Address) (size : Nat) :
    Action.Alike R (CommandBridge.readRange start size) (CommandBridge.readRange start size) := by
  rw [CommandBridge.readRange, CommandBridge.readRange]
  cases checkRange start size with
  | error why => exact .pure _
  | ok _ => exact (h.inspecting (h.peekAll _)).bind fun _ => .pure _

theorem allows (h : Machine.Alike R) (p : Permission) :
    Action.Alike R (p.allows (Machine.hasFeature : Feature → Action σ Bool))
      (p.allows Machine.hasFeature) := by
  cases p with
  | readOnly => exact .pure _
  | readWrite => exact .pure _
  | conditional needs => exact h.hasFeature needs

theorem firstDenied (h : Machine.Alike R) (map : RegionMap) (addresses : List Address) :
    Action.Alike R (map.firstDenied (Machine.hasFeature : Feature → Action σ Bool) addresses)
      (map.firstDenied Machine.hasFeature addresses) := by
  induction addresses with
  | nil => exact .pure _
  | cons a rest ih =>
    refine (h.allows (map.permission a)).bind fun allowed => ?_
    cases allowed with
    | true => exact ih
    | false => exact .pure _

theorem checkWrite (h : Machine.Alike R) (map : RegionMap) (start : Address) (size : Nat) :
    Action.Alike R (map.checkWrite start size (Machine.hasFeature : Feature → Action σ Bool))
      (map.checkWrite start size Machine.hasFeature) := by
  rw [RegionMap.checkWrite, RegionMap.checkWrite]
  cases checkRange start size with
  | error why => exact .pure _
  | ok _ =>
    refine (h.firstDenied map _).bind fun denied => ?_
    cases denied <;> exact .pure _

theorem writeRange (h : Machine.Alike R) (map : RegionMap) (start : Address) (data : List UInt8) :
    Action.Alike R (CommandBridge.writeRange map start data)
      (CommandBridge.writeRange map start data) := by
  refine (h.checkWrite map start data.length).bind fun verdict => ?_
  cases verdict with
  | error e => exact .pure _
  | ok _ => exact (h.pokeFrom start 0 data).bind fun _ => .pure _

theorem perform (h : Machine.Alike R) (map : RegionMap) (op : MemoryOp) :
    Action.Alike R (op.perform map) (op.perform map) := by
  cases op with
  | read start size => exact (h.readRange start size).bind fun _ => .pure _
  | write start data => exact (h.writeRange map start data).bind fun _ => .pure _

theorem performAll (h : Machine.Alike R) (map : RegionMap) (ops : List MemoryOp) :
    Action.Alike R (CommandBridge.performAll map ops) (CommandBridge.performAll map ops) := by
  induction ops with
  | nil => exact .pure _
  | cons op rest ih => exact (h.perform map op).bind fun _ => ih.bind fun _ => .pure _

theorem rawInputs (h : Machine.Alike R) (channels : List Channel) :
    Action.Alike R (Session.rawInputs channels) (Session.rawInputs channels) := by
  induction channels with
  | nil => exact .pure _
  | cons c rest ih => exact (h.rawInput c).bind fun _ => ih.bind fun _ => .pure _

end Machine.Alike

/-! ### Requests and steps -/

namespace Session

/-- One case for each request. -/
theorem alike_respond (h : Machine.Alike R) (request : Request) :
    Action.Alike (Alike R) (respond request : Action (Session σ) _) (respond request) := by
  have haccess : ∀ op, Action.Alike (Alike R) (access op : Action (Session σ) _) (access op) := by
    intro op
    refine .current_bind fun s t hst => ?_
    rw [hst.regions_eq]
    exact (alike_onMachine (h.perform t.regions op)).bind fun _ => .pure _
  cases request with
  | readByte a => exact (alike_onMachine (h.inspecting (h.peek a))).bind fun _ => .pure _
  | readRange start size => exact haccess _
  | writeByte a value => exact haccess _
  | writeRange start data => exact haccess _
  | batch ops =>
    refine .current_bind fun s t hst => ?_
    rw [hst.regions_eq]
    exact (alike_onMachine (h.performAll t.regions ops)).bind fun _ => .pure _
  | setOverlay c set clear hold =>
    refine alike_changeOverlay fun s t hst => ?_
    rw [alike_holdTicks hst, hst.overlays_eq, hst.tick_eq]
  | clearOverlay c buttons =>
    refine alike_changeOverlay fun s t hst => ?_
    rw [hst.overlays_eq]
  | setState c buttons hold =>
    refine alike_changeOverlay fun s t hst => ?_
    rw [alike_holdTicks hst, hst.overlays_eq, hst.tick_eq]
  | inputStatus =>
    refine .current_bind fun s t hst => ?_
    rw [hst.overlays_eq]
    exact (alike_onMachine (h.rawInputs _)).bind fun _ => .pure _
  | pause => exact alike_control true
  | resume => exact alike_control false
  | status =>
    refine .current_bind fun s t hst => (alike_onMachine h.isLoaded).bind fun _ => ?_
    rw [hst.paused_eq, hst.tick_eq, hst.tickRate_eq]
    exact (alike_onMachine (h.hasFeature _)).bind fun _ => .pure _
  | saveState slot => exact alike_useSlot (h.saveState slot)
  | loadState slot => exact alike_useSlot (h.loadState slot)

theorem alike_handle (h : Machine.Alike R) (request : Request) :
    Action.Alike (Alike R) (handle request : Action (Session σ) _) (handle request) := by
  rw [handle, handle]
  split
  · refine (alike_onMachine h.isLoaded).bind fun loaded => ?_
    cases loaded with
    | true => exact alike_respond h request
    | false => exact .pure _
  · exact alike_respond h request

theorem alike_nextFrame (h : Machine.Alike R) :
    Action.Alike (Alike R) (nextFrame : Action (Session σ) _) nextFrame := by
  refine .current_bind fun s t hst => ?_
  rw [hst.overlays_eq, hst.tick_eq]
  exact (alike_onMachine (h.rawInputs _)).bind fun _ => .pure _

theorem alike_step (h : Machine.Alike R) {s : Session σ} {t : Session τ} (hst : Alike R s t)
    (frame : InputFrame) :
    (s.step frame).1 = (t.step frame).1 ∧ Alike R (s.step frame).2 (t.step frame).2 := by
  obtain ⟨hanswer, hrelated⟩ := h.step frame _ _ hst.machine
  rw [step, step, hanswer, hst.overlays_eq, hst.tick_eq]
  exact ⟨rfl, hrelated, rfl, rfl, hst.paused_eq, hst.regions_eq, hst.tickRate_eq⟩

end Session

end CommandBridge
