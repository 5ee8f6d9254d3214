import CommandBridge.Proofs.Bridge.Outcomes
import CommandBridge.Proofs.Session.Replay

/-!
# What is counted and published in every stage

A command is counted when it ends, in the middle of a tick, so the counters of commands agree with
the ledger in every stage and not only between ticks (`Reachable.counted`). The panics among them
can be told from their outcomes: of an admitted request no handler answers that it has panicked
(`Session.handle_ne_handlerPanicked`).

In every stage, too, the tick that producers see is that of the session (`Reachable.published`).
-/

namespace CommandBridge

open CommandBridge.Action

/-! ### Commands that have ended -/

namespace Execution

/-- Whether the command ended with a reply. -/
def succeeded (x : Execution) : Bool := x.outcome.toBool

/-- Whether the command ended because its handler panicked. -/
def panicked (x : Execution) : Bool :=
  match x.outcome with
  | .error (.internal (.handlerPanicked _)) => true
  | _ => false

/-- A command whose handler panicked has failed. -/
theorem not_succeeded_of_panicked {x : Execution} (h : x.panicked = true) :
    (!x.succeeded) = true := by
  rw [panicked] at h
  split at h
  · next houtcome => rw [succeeded, houtcome]; rfl
  · cases h

end Execution

namespace Ledger

/-- The counters of commands that have ended agree with the ledger. -/
structure Counted (l : Ledger) (c : Counters) : Prop where
  executed_eq : c.executed = UInt64.ofNat (l.executed.countP (·.succeeded))
  failed_eq : c.failed = UInt64.ofNat (l.executed.countP (!·.succeeded))
  panics_eq : c.panics = UInt64.ofNat (l.executed.countP (·.panicked))

/-- One more command has ended and is counted. -/
theorem Counted.ran {l : Ledger} {c : Counters} (h : l.Counted c) (x : Execution) :
    (l.ran [x]).Counted
      (Counters.countOutcome (if x.panicked then c.countPanic else c) x.succeeded) := by
  obtain ⟨hexecuted, hfailed, hpanics⟩ := h
  constructor <;> cases hs : x.succeeded <;> cases hp : x.panicked <;>
    simp [Ledger.ran, Counters.countOutcome, Counters.countPanic, hs, hp, hexecuted, hfailed,
      hpanics]

end Ledger

variable {σ : Type}

namespace Session

variable [Machine σ]

/-- A handler that answers an admitted request does not answer that it has panicked. -/
theorem handle_ne_handlerPanicked {limits : Limits} {s : Session σ} (hfits : s.Fits limits)
    {request : Request} (hvalid : limits.check request = .ok ()) (p : Panic) :
    ((handle request).run s).1 ≠ .ok (.error (.internal (.handlerPanicked p))) := by
  intro h
  obtain ⟨m, ⟨-, hrun⟩ | ⟨q, hrun⟩ | hrun⟩ := handle_cases request s
  · rw [hrun] at h
    have hfits' : Fits limits { s with machine := m } := ⟨hfits.regions_eq, hfits.count_eq⟩
    rcases respond_error_of_admitted hfits' hvalid (Prod.ext h rfl) with
      ⟨why, hwhy⟩ | ⟨_, _, _, -, hdenied, -⟩
    · cases why <;> cases hwhy
    · cases hdenied
  · rw [hrun] at h
    cases h
  · rw [hrun] at h
    cases h

/-- A panic of the handler shows in the outcome of an admitted command, and nothing else looks
like it. -/
theorem panicked_handle {limits : Limits} {s : Session σ} (hfits : s.Fits limits)
    {command : Command} (hvalid : limits.check command.request = .ok ()) :
    (!((handle command.request).run s).1.toBool) =
      Execution.panicked ⟨command, outcomeOf ((handle command.request).run s).1⟩ := by
  have hne := handle_ne_handlerPanicked hfits hvalid
  cases hanswer : ((handle command.request).run s).1 with
  | error p => rfl
  | ok outcome =>
    rw [hanswer] at hne
    rw [Execution.panicked]
    split
    · next p hpanicked => exact absurd (congrArg Except.ok hpanicked) (hne p)
    · rfl

end Session

namespace Bridge

variable [Machine σ]

/-- Running a command counts it in agreement with the ledger. -/
theorem counted_runCommand {b : Bridge σ} {l : Ledger} (h : l.Counted b.intake.counters)
    (hfits : b.session.Fits b.intake.limits) {command : Command}
    (hvalid : b.intake.limits.check command.request = .ok ()) :
    (l.ran [⟨command, (b.runCommand command).1⟩]).Counted
      (b.runCommand command).2.intake.counters := by
  have hran := h.ran ⟨command, (b.runCommand command).1⟩
  rw [runCommand, ← Session.panicked_handle hfits hvalid] at hran
  exact hran

/-- What the second half of a tick counts is what it reports. -/
theorem counters_closeTick (o : OpenTick) (b : Bridge σ) :
    (closeTick o b).2.intake.counters = { b.intake.counters with
      ticks := b.intake.counters.ticks + 1
      deferred := b.intake.counters.deferred + UInt64.ofNat (closeTick o b).1.deferred
      stepFailures := b.intake.counters.stepFailures +
        if (closeTick o b).1.stepFailed then 1 else 0 } := by
  obtain ⟨outcomes, deferred, frame⟩ := o
  cases frame with
  | none => simp [closeTick, Counters.countTick]
  | some frame =>
    cases hstep : (b.session.step frame).1 <;>
      simp [closeTick, hstep, Counters.countTick, Counters.countStepFailure]

theorem counted_closeTick {l : Ledger} {b : Bridge σ} (h : l.Counted b.intake.counters)
    (o : OpenTick) : l.Counted (closeTick o b).2.intake.counters := by
  rw [counters_closeTick]
  exact ⟨h.executed_eq, h.failed_eq, h.panics_eq⟩

end Bridge

namespace Session

variable [Machine σ]

/-- Building a frame does not move the tick. -/
theorem tick_nextFrame (s : Session σ) : (nextFrame.run s).2.tick = s.tick :=
  keeps_nextFrame (P := fun t => t.tick = s.tick) (fun _ => .onPart _ fun _ ht => ht) s rfl

end Session

theorem Intake.counted_submit {i : Intake} {l : Ledger} (h : l.Counted i.counters)
    (request : Request) : l.Counted (i.submit request).2.counters := by
  obtain ⟨hexecuted, hfailed, hpanics⟩ := h
  rw [submit]
  split
  · exact ⟨hexecuted, hfailed, hpanics⟩
  · split <;> exact ⟨hexecuted, hfailed, hpanics⟩

theorem Intake.tick_submit (i : Intake) (request : Request) :
    (i.submit request).2.tick = i.tick := by
  obtain ⟨_, _, hsubmit⟩ := i.exists_submit request
  rw [hsubmit]

namespace Bridge

variable [Machine σ]

/-- Producers see the tick of the session. -/
theorem published_invariant :
    BridgeInvariant fun b : Bridge σ => b.intake.tick = b.session.tick where
  submit b request h := (b.intake.tick_submit request).trans h
  useFuture _ _ _ h := h
  drained _ h := h
  runCommand b command h := h.trans (Session.tick_handle command.request b.session).symm
  nextFrame b h := h.trans b.session.tick_nextFrame.symm
  closeTick b o h := by
    rw [closeTick]
    cases o.frame with
    | none => exact h
    | some frame => rfl
  close _ h := h
  unattended _ h := h
  changeMachine _ _ h := h

theorem budget_invariant (budget : Nat) :
    BridgeInvariant fun b : Bridge σ => b.budget = budget where
  submit _ _ h := h
  useFuture _ _ _ h := h
  drained _ h := h
  runCommand _ _ h := h
  nextFrame _ h := h
  closeTick b o h := by
    rw [closeTick]
    cases o.frame <;> exact h
  close _ h := h
  unattended _ h := h
  changeMachine _ _ h := h

end Bridge

namespace Reachable

variable [Machine σ] {allowed : (σ → σ) → Prop} {machine : σ} {settings : Settings}
  {b₀ : Bridge σ} {s : Stage σ}

/-- In every stage the counters of commands agree with the commands that were run. -/
theorem counted (hstart : Bridge.start machine settings = .ok b₀) (h : Reachable allowed b₀ s) :
    s.ledger.Counted s.bridge.intake.counters := by
  induction h with
  | opened =>
    obtain ⟨regions, -, -, rfl⟩ := Bridge.start_eq_ok.mp hstart
    exact ⟨rfl, rfl, rfl⟩
  | submit request _ ih =>
    obtain ⟨hexecuted, hfailed, hpanics⟩ := Intake.counted_submit ih request
    constructor <;> rw [Stage.executed_submit]
    · exact hexecuted
    · exact hfailed
    · exact hpanics
  | useFuture id use _ ih => exact ih
  | @proceed s hs ih =>
    have hfits := hs.fits hstart
    have hbalanced := hs.balanced hstart
    obtain ⟨b, place, l⟩ := s
    match place with
    | .idle => exact ih
    | .running (command :: rest) outcomes deferred =>
      -- A command in hand was accepted, so its request has passed admission.
      refine Bridge.counted_runCommand ih hfits (hbalanced.admitted command ?_)
      rw [hbalanced.accepted_eq]
      simp [Place.inHand]
    | .running [] outcomes deferred =>
      simp only [Stage.proceed]
      split
      · exact Bridge.counted_closeTick ih _
      · exact ih
    | .stepping o => exact Bridge.counted_closeTick ih o
  | close _ _ ih => exact ⟨ih.executed_eq, ih.failed_eq, ih.panics_eq⟩
  | unattended _ ih => exact ih
  | outside change _ _ ih => exact ih

/-- In every stage the published tick is that of the session. -/
theorem published (hstart : Bridge.start machine settings = .ok b₀)
    (h : Reachable allowed b₀ s) : s.bridge.intake.tick = s.bridge.session.tick := by
  obtain ⟨regions, -, -, rfl⟩ := Bridge.start_eq_ok.mp hstart
  exact h.bridge_invariant Bridge.published_invariant rfl

/-- The budget is that of the beginning in every stage. -/
theorem budget_eq (h : Reachable allowed b₀ s) : s.bridge.budget = b₀.budget :=
  h.bridge_invariant (Bridge.budget_invariant _) rfl

end Reachable

end CommandBridge
