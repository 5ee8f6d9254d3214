import CommandBridge.Proofs.Input.Holds
import CommandBridge.Proofs.Session.Calculus

/-!
# Invariants of sessions

A property of the session and of the commands that were run is an invariant if it survives
everything that can happen to a session: a command, a frame being built, a step, and a change of
the machine from outside (`SessionInvariant`).

For properties of the machine there is less to show. It is enough that they survive what the
bridge asks of a machine: reads under inspection, checked writes, snapshots, steps and questions
(`Machine.Keeps`, `SessionInvariant.of_machine`). Handlers take no steps, so a property that steps
destroy may survive them all the same (`Session.KeptByMachine.of_machine`).
-/

namespace CommandBridge

open CommandBridge.Action

variable {σ : Type} [Machine σ]

/-- What has to be shown of a property of the commands that were run and the session they have
left, so that it holds along every run: each change of the session preserves it. -/
structure SessionInvariant (allowed : (σ → σ) → Prop)
    (P : List Execution → Session σ → Prop) : Prop where
  handle : ∀ history s command, P history s →
    P (history ++ [⟨command, outcomeOf ((Session.handle command.request).run s).1⟩])
      ((Session.handle command.request).run s).2
  nextFrame : ∀ history s, P history s → P history (Session.nextFrame.run s).2
  step : ∀ history s frame, P history s → P history (s.step frame).2
  outside : ∀ history s change, P history s → allowed change →
    P history { s with machine := change s.machine }

/-! ### Properties of the machine -/

/-- The property `P` of the machine survives everything that a session with the given regions does
with it. While inspection is on, `Q` holds instead. -/
structure Machine.Keeps (map : RegionMap) (P Q : σ → Prop) : Prop where
  isLoaded : Action.Keeps P Machine.isLoaded
  hasFeature : ∀ f, Action.Keeps P (Machine.hasFeature f)
  rawInput : ∀ c, Action.Keeps P (Machine.rawInput c)
  step : ∀ frame, Action.Keeps P (Machine.step frame)
  raise : ∀ m, P m → Q (Machine.setInspection true m)
  peek : ∀ a, Action.Keeps Q (Machine.peek a)
  lower : ∀ m, Q m → P (Machine.setInspection false m)
  writeRange : ∀ start data, Action.Keeps P (CommandBridge.writeRange map start data)
  saveState : ∀ slot, Action.Keeps P (Machine.saveState slot)
  loadState : ∀ slot, Action.Keeps P (Machine.loadState slot)

/-- A property of the machine survives the handlers if it survives questions, reads under
inspection, checked writes, and snapshots. -/
theorem Session.KeptByMachine.of_machine {map : RegionMap} {P Q : σ → Prop}
    (hloaded : Action.Keeps P Machine.isLoaded)
    (hfeature : ∀ f, Action.Keeps P (Machine.hasFeature f))
    (hraw : ∀ c, Action.Keeps P (Machine.rawInput c))
    (hraise : ∀ m, P m → Q (Machine.setInspection true m))
    (hpeek : ∀ a, Action.Keeps Q (Machine.peek a))
    (hlower : ∀ m, Q m → P (Machine.setInspection false m))
    (hwrite : ∀ start data, Action.Keeps P (writeRange map start data))
    (hsave : ∀ slot, Action.Keeps P (Machine.saveState slot))
    (hload : ∀ slot, Action.Keeps P (Machine.loadState slot)) :
    Session.KeptByMachine fun s : Session σ => s.regions = map ∧ P s.machine := by
  have hlift : ∀ {α : Type} {x : Action σ α}, Keeps P x →
      Keeps (fun s : Session σ => s.regions = map ∧ P s.machine) (Session.onMachine x) :=
    fun hx => .onPart _ fun _ hs => ⟨hs.1, hx _ hs.2⟩
  have hperform := keeps_perform (keeps_readRange hraise hpeek hlower) hwrite
  refine ⟨hlift hloaded, fun f => hlift (hfeature f),
    fun l => hlift (Session.keeps_rawInputs hraw l),
    fun a => hlift (keeps_inspecting hraise hlower (hpeek a)), ?_, ?_,
    fun slot => hlift (hsave slot), fun slot => hlift (hload slot)⟩
  · rintro op s ⟨rfl, hs⟩
    exact hlift (hperform op) s ⟨rfl, hs⟩
  · rintro ops s ⟨rfl, hs⟩
    exact hlift (keeps_performAll hperform ops) s ⟨rfl, hs⟩

/-- A property of the machine that survives what sessions do with it is an invariant of the
sessions with the given regions. -/
theorem SessionInvariant.of_machine {allowed : (σ → σ) → Prop} {map : RegionMap} {P Q : σ → Prop}
    (h : Machine.Keeps map P Q) (houtside : ∀ change m, allowed change → P m → P (change m)) :
    SessionInvariant allowed fun _ (s : Session σ) => s.regions = map ∧ P s.machine := by
  have hmachine := Session.KeptByMachine.of_machine h.isLoaded h.hasFeature h.rawInput h.raise
    h.peek h.lower h.writeRange h.saveState h.loadState
  refine ⟨?_, ?_, ?_, ?_⟩
  · intro _ s command hs
    exact Session.keeps_handle hmachine (fun _ _ ht => ht) command.request
      (fun _ _ _ _ ht _ => ht) s hs
  · intro _ s hs
    exact Session.keeps_nextFrame hmachine.rawInputs s hs
  · rintro _ s frame ⟨hregions, hs⟩
    exact ⟨hregions, h.step frame _ hs⟩
  · rintro _ s change ⟨hregions, hs⟩ hallowed
    exact ⟨hregions, houtside change _ hallowed hs⟩

end CommandBridge
