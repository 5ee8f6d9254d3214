import CommandBridge.Proofs.Bridge.Stages
import CommandBridge.Proofs.Session.Simulation

/-!
# Bridges around machines that answer alike

Two stages whose machines answer alike stay alike under every move (`Stage.Alike.proceed` and the
lemmas beside it), so each stage that a bridge reaches around the one machine has a counterpart
that a bridge around the other one reaches (`Reachable.exists_alike`).
-/

namespace CommandBridge

variable {σ τ : Type} {R : σ → τ → Prop}

/-- Bridges that differ only in their machines, which are related. -/
structure Bridge.Alike (R : σ → τ → Prop) (b : Bridge σ) (c : Bridge τ) : Prop where
  session : Session.Alike R b.session c.session
  intake_eq : b.intake = c.intake
  budget_eq : b.budget = c.budget

/-- Stages that differ only in their machines, which are related. -/
structure Stage.Alike (R : σ → τ → Prop) (s : Stage σ) (t : Stage τ) : Prop where
  bridge : Bridge.Alike R s.bridge t.bridge
  place_eq : s.place = t.place
  ledger_eq : s.ledger = t.ledger

/-! ### Moves that leave the session alone -/

namespace Bridge.Alike

variable {b : Bridge σ} {c : Bridge τ}

/-- The producers' side changes in the same way. -/
theorem intake (h : Bridge.Alike R b c) (f : Intake → Intake) :
    Bridge.Alike R { b with intake := f b.intake } { c with intake := f c.intake } :=
  ⟨h.session, congrArg f h.intake_eq, h.budget_eq⟩

theorem changeMachine (h : Bridge.Alike R b c) {change : σ → σ} {change' : τ → τ}
    (hchange : ∀ m n, R m n → R (change m) (change' n)) :
    Bridge.Alike R (b.changeMachine change) (c.changeMachine change') := by
  obtain ⟨hmachine, hoverlays, htick, hpaused, hregions, hrate⟩ := h.session
  exact ⟨⟨hchange _ _ hmachine, hoverlays, htick, hpaused, hregions, hrate⟩, h.intake_eq,
    h.budget_eq⟩

theorem submit (h : Bridge.Alike R b c) (request : Request) :
    (b.submit request).1 = (c.submit request).1 ∧
      Bridge.Alike R (b.submit request).2 (c.submit request).2 := by
  refine ⟨?_, h.intake fun i => (i.submit request).2⟩
  rw [Bridge.submit, Bridge.submit, h.intake_eq]

theorem close (h : Bridge.Alike R b c) :
    b.close.1 = c.close.1 ∧ Bridge.Alike R b.close.2 c.close.2 := by
  refine ⟨?_, h.intake fun i => i.close.2⟩
  rw [Bridge.close, Bridge.close, h.intake_eq]

theorem batch_eq (h : Bridge.Alike R b c) : b.batch = c.batch := by
  rw [Bridge.batch, Bridge.batch, h.intake_eq, h.budget_eq]

theorem drained (h : Bridge.Alike R b c) : Bridge.Alike R b.drained c.drained := by
  refine ⟨h.session, ?_, h.budget_eq⟩
  simp only [Bridge.drained, h.intake_eq, h.budget_eq]

/-! ### Moves of the ticking side -/

variable [Machine σ] [Machine τ]

theorem runCommand (h : Bridge.Alike R b c) (hR : Machine.Alike R) (command : Command) :
    (b.runCommand command).1 = (c.runCommand command).1 ∧
      Bridge.Alike R (b.runCommand command).2 (c.runCommand command).2 := by
  obtain ⟨hanswer, hsession⟩ := Session.alike_handle hR command.request _ _ h.session
  rw [Bridge.runCommand, Bridge.runCommand, hanswer, h.intake_eq]
  exact ⟨rfl, hsession, rfl, h.budget_eq⟩

theorem closeTick (h : Bridge.Alike R b c) (hR : Machine.Alike R) (o : OpenTick) :
    (Bridge.closeTick o b).1 = (Bridge.closeTick o c).1 ∧
      Bridge.Alike R (Bridge.closeTick o b).2 (Bridge.closeTick o c).2 := by
  rw [Bridge.closeTick, Bridge.closeTick]
  cases o.frame with
  | none =>
    rw [h.session.tick_eq, h.intake_eq]
    exact ⟨rfl, h.session, rfl, h.budget_eq⟩
  | some frame =>
    obtain ⟨hanswer, hsession⟩ := Session.alike_step hR h.session frame
    dsimp only
    rw [h.session.tick_eq, h.intake_eq, hanswer, hsession.tick_eq]
    exact ⟨rfl, hsession, rfl, h.budget_eq⟩

end Bridge.Alike

namespace Stage.Alike

variable {s : Stage σ} {t : Stage τ}

theorem submit (h : Stage.Alike R s t) (request : Request) :
    Stage.Alike R (s.submit request) (t.submit request) := by
  obtain ⟨hanswer, hbridge⟩ := h.bridge.submit request
  refine ⟨hbridge, h.place_eq, ?_⟩
  rw [Stage.submit, Stage.submit, h.ledger_eq, h.bridge.intake_eq, hanswer]

theorem close (h : Stage.Alike R s t) : Stage.Alike R s.close t.close := by
  obtain ⟨hanswer, hbridge⟩ := h.bridge.close
  refine ⟨hbridge, h.place_eq, ?_⟩
  rw [Stage.close, Stage.close, h.ledger_eq, h.bridge.intake_eq, hanswer]

variable [Machine σ] [Machine τ]

/-- The ticking sides make the same move. -/
theorem proceed (h : Stage.Alike R s t) (hR : Machine.Alike R) :
    Stage.Alike R s.proceed t.proceed := by
  obtain ⟨b, place, l⟩ := s
  obtain ⟨c, place', l'⟩ := t
  have hbridge : Bridge.Alike R b c := h.bridge
  obtain rfl : place = place' := h.place_eq
  obtain rfl : l = l' := h.ledger_eq
  match place with
  | .idle =>
    refine ⟨hbridge.drained, ?_, rfl⟩
    simp only [Stage.proceed, hbridge.batch_eq, hbridge.drained.intake_eq]
  | .running (command :: rest) outcomes deferred =>
    obtain ⟨hanswer, hbridge'⟩ := hbridge.runCommand hR command
    refine ⟨hbridge', ?_, ?_⟩
    · simp only [Stage.proceed, hanswer]
    · simp only [Stage.proceed, hanswer]
  | .running [] outcomes deferred =>
    simp only [Stage.proceed, hbridge.session.paused_eq]
    by_cases hpaused : c.session.paused = true
    · simp only [if_pos hpaused]
      exact ⟨(hbridge.closeTick hR _).2, rfl, rfl⟩
    · obtain ⟨hanswer, hsession⟩ := Session.alike_nextFrame hR _ _ hbridge.session
      simp only [if_neg hpaused, hanswer]
      exact ⟨⟨hsession, hbridge.intake_eq, hbridge.budget_eq⟩, rfl, rfl⟩
  | .stepping o => exact ⟨(hbridge.closeTick hR o).2, rfl, rfl⟩

end Stage.Alike

/-- What a bridge reaches around the one machine, a bridge reaches around the other one, if every
change from outside has a counterpart. -/
theorem Reachable.exists_alike [Machine σ] [Machine τ] (hR : Machine.Alike R)
    {allowed : (σ → σ) → Prop} {allowed' : (τ → τ) → Prop} {b₀ : Bridge σ} {c₀ : Bridge τ}
    (hopened : Bridge.Alike R b₀ c₀)
    (hchanges : ∀ change', allowed' change' →
      ∃ change, allowed change ∧ ∀ m n, R m n → R (change m) (change' n))
    {t : Stage τ} (h : Reachable allowed' c₀ t) :
    ∃ s, Reachable allowed b₀ s ∧ Stage.Alike R s t := by
  induction h with
  | opened => exact ⟨_, .opened, hopened, rfl, rfl⟩
  | submit request _ ih =>
    obtain ⟨s, hs, halike⟩ := ih
    exact ⟨_, hs.submit request, halike.submit request⟩
  | useFuture id use _ ih =>
    obtain ⟨s, hs, halike⟩ := ih
    exact ⟨_, hs.useFuture id use, halike.bridge.intake fun i => i.modifyTicket id use.apply,
      halike.place_eq, halike.ledger_eq⟩
  | proceed _ ih =>
    obtain ⟨s, hs, halike⟩ := ih
    exact ⟨_, hs.proceed, halike.proceed hR⟩
  | close _ hidle ih =>
    obtain ⟨s, hs, halike⟩ := ih
    exact ⟨_, hs.close (halike.place_eq.trans hidle), halike.close⟩
  | unattended _ ih =>
    obtain ⟨s, hs, halike⟩ := ih
    exact ⟨_, hs.unattended, halike.bridge.intake fun i => { i with alive := false },
      halike.place_eq, halike.ledger_eq⟩
  | outside change' _ hallowed ih =>
    obtain ⟨s, hs, halike⟩ := ih
    obtain ⟨change, hchange, hrelated⟩ := hchanges change' hallowed
    exact ⟨_, hs.outside change hchange, halike.bridge.changeMachine hrelated, halike.place_eq,
      halike.ledger_eq⟩

end CommandBridge
