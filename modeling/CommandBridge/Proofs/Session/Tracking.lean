import CommandBridge.Proofs.Input.Holds
import CommandBridge.Proofs.Session.Calculus

/-!
# Sessions keep track of their history

`Session.Tracks history s` says that the overlay of every channel of the session is what the
history of executed commands makes of it. Running one more command extends the history by it
(`Session.tracks_handle`), whether it succeeds, fails or panics, and a step moves on to the next
tick (`Session.tracks_step`).

Only the three requests that change overlays matter, and of these only the ones that succeed:
everything else is irrelevant to the history, and leaves the overlays alone.
-/

namespace CommandBridge

open CommandBridge.Action

namespace Execution

/-! ### Executed commands without effect on holds -/

theorem irrelevant_of_channel {x : Execution} {c : Channel}
    (h : x.command.request.overlayChannel? ≠ some c) : x.Irrelevant c := by
  refine ⟨?_, ?_, ?_⟩
  · rw [holding?]
    split <;> simp_all [Request.overlayChannel?]
  · rw [endsHolds]
    split <;> simp_all [Request.overlayChannel?]
  · rw [released]
    split <;> simp_all [Request.overlayChannel?]

end Execution

namespace Session

variable {σ : Type} {history : List Execution} {s : Session σ} {x : Execution}

/-- The overlay of every channel is what the history makes of it. -/
def Tracks (history : List Execution) (s : Session σ) : Prop :=
  ∀ c o, s.overlays.channel? c = some o → Tracked c history s.tick o

theorem Tracks.congr {s' : Session σ} (h : s.Tracks history) (hoverlays : s'.overlays = s.overlays)
    (htick : s'.tick = s.tick) : s'.Tracks history := by
  intro c o ho
  rw [hoverlays] at ho
  rw [htick]
  exact h c o ho

theorem Tracks.irrelevant (h : s.Tracks history) (hx : ∀ c, x.Irrelevant c) :
    s.Tracks (history ++ [x]) :=
  fun c o ho => (h c o ho).irrelevant (hx c)

/-- A command that has changed the overlay of its own channel in accordance with the history. -/
theorem Tracks.modify (h : s.Tracks history) {c : Channel} {f : Overlay → Overlay}
    (hchannel : x.command.request.overlayChannel? = some c)
    (hf : ∀ o, Tracked c history s.tick o → Tracked c (history ++ [x]) s.tick (f o)) :
    Tracks (history ++ [x]) { s with overlays := s.overlays.modify c f } := by
  intro d o ho
  simp only [OverlaySet.channel?_modify] at ho
  split at ho
  case isTrue hcd =>
    subst hcd
    obtain ⟨o', ho', rfl⟩ := Option.map_eq_some_iff.mp ho
    exact hf o' (h c o' ho')
  case isFalse hcd =>
    -- The overlay of another channel has not changed.
    apply (h d o ho).irrelevant
    apply Execution.irrelevant_of_channel
    rw [hchannel]
    simpa using hcd

/-! ### The requests that change overlays -/

variable [Machine σ]

/-- A frame is built from the raw input reported for each channel, and only the machine can be
changed by asking for it. -/
theorem nextFrame_eq_ok {s' : Session σ} {frame : InputFrame}
    (h : nextFrame.run s = (.ok frame, s')) :
    ∃ raws m, (rawInputs s.overlays.channels).run s.machine = (.ok raws, m) ∧
      s' = { s with machine := m } ∧
      frame = s.overlays.frame s.tick fun c => raws[c.index]?.getD Buttons.none := by
  obtain ⟨_, _, ⟨⟩, h⟩ := run_bind_eq_ok_iff.mp h
  obtain ⟨raws, t, hraws, h⟩ := run_bind_eq_ok_iff.mp h
  rw [onMachine, run_onPart] at hraws
  obtain ⟨hanswer, rfl⟩ := Prod.mk.inj hraws
  cases h
  exact ⟨raws, _, Prod.ext hanswer rfl, rfl, rfl⟩

end Session

end CommandBridge
