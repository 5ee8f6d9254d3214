import CommandBridge.Proofs.Bridge.Stages

/-!
# Loops are sequences of moves

A bridge with a loop of its own is a stage as well: inside a step the ticking side is about to step
the machine, and in every other place of the loop it is between two ticks (`Clocked.stage`).
`Clocked.Run` says which clocked bridges a producer and an owner can get to, while the clock goes
on by itself; `Clocked.Run.reachable` says that all of these are reachable stages, so whatever
holds of stages holds of them.

Nobody outside sees a ledger. What a producer and an owner do see are the answers to submissions
and the reports of shutdowns, and `Clocked.Log` keeps both. There is a ledger that agrees with
them (`Clocked.Log.reachable`).

The one induction on fuel is over the ticks that an idling loop makes in a row
(`Clocked.reachable_settle`).
-/

namespace CommandBridge

variable {σ : Type}

/-- Where the ticking side is when the loop is in a place. -/
def LoopPlace.place : LoopPlace → Place
  | .stepping o => .stepping o
  | _ => .idle

/-- A clocked bridge as a stage. -/
def Clocked.stage (c : Clocked σ) (l : Ledger) : Stage σ := ⟨c.bridge, c.place.place, l⟩

variable [Machine σ] {allowed : (σ → σ) → Prop} {b₀ : Bridge σ} {l : Ledger}

namespace Clocked

theorem isShutDown_settle (fuel : Nat) (c : Clocked σ) :
    (settle fuel c).isShutDown = c.isShutDown := by
  induction fuel generalizing c with
  | zero => rfl
  | succ fuel ih =>
    rw [settle]
    split
    · rfl
    · split
      · rfl
      · dsimp only
        split
        · rfl
        · split
          · rfl
          · exact ih _

theorem isShutDown_submit (c : Clocked σ) (request : Request) :
    (c.submit request).2.isShutDown = c.isShutDown := by
  rw [submit]
  split
  · exact isShutDown_settle _ _
  · rfl

theorem isShutDown_advance (c : Clocked σ) : c.advance.isShutDown = c.isShutDown := by
  rw [advance]
  split
  · dsimp only
    split
    · rfl
    · exact isShutDown_settle _ _
  · rfl

theorem isShutDown_shutdown (c : Clocked σ) : c.shutdown.2.isShutDown = true := by
  rw [shutdown]
  cases hdone : c.isShutDown with
  | true => exact hdone
  | false => rfl

/-- The loop does not notice what is refused. -/
theorem submit_of_error {c : Clocked σ} {request : Request} {e : CommandError}
    (h : c.bridge.submit request = (.error e, c.bridge)) : c.submit request = (.error e, c) := by
  rw [submit, h]
  split
  case h_1 hanswer => cases hanswer
  case h_2 => rfl

/-- Following the loop from the end of a tick. -/
theorem reachable_settle {c : Clocked σ} (h : Reachable allowed b₀ ⟨c.bridge, .idle, l⟩)
    (fuel : Nat) : ∃ xs, Reachable allowed b₀ ((settle fuel c).stage (l.ran xs)) := by
  induction fuel generalizing c l with
  | zero => exact ⟨[], by rw [Ledger.ran_nil]; exact h⟩
  | succ fuel ih =>
    -- A tick that gets to its step stops there. The others are whole, and the loop may go on.
    have htick := h.tick
    rw [settle]
    rcases hopen : Bridge.openTick c.bridge with ⟨p | o, b⟩
    · rw [Bridge.tick, hopen] at htick
      exact ⟨_, htick.unattended⟩
    · cases hframe : o.frame with
      | some frame =>
        simp only [hframe]
        exact ⟨c.bridge.executions, h.openTick_of_frame hopen hframe⟩
      | none =>
        rw [Bridge.tick, hopen] at htick
        simp only [hframe]
        split
        · exact ⟨_, htick.unattended⟩
        · split
          · exact ⟨_, htick⟩
          · obtain ⟨xs, hxs⟩ := ih (c := { c with bridge := (Bridge.closeTick o b).2 }) htick
            rw [Ledger.ran_ran] at hxs
            exact ⟨_, hxs⟩

theorem reachable_follow {c : Clocked σ} (h : Reachable allowed b₀ ⟨c.bridge, .idle, l⟩) :
    ∃ xs, Reachable allowed b₀ (c.follow.stage (l.ran xs)) :=
  reachable_settle h _

/-- A new bridge before its loop goes round for the first time. -/
def opened (b : Bridge σ) (tickBudget timeout : Span) : Clocked σ where
  bridge := b
  place := .idling
  tickBudget := tickBudget
  timeout := timeout
  reading := ⟨0⟩
  hasIdled := false
  isShutDown := false

omit [Machine σ] in
@[simp] theorem bridge_opened (b : Bridge σ) (tickBudget timeout : Span) :
    (opened b tickBudget timeout).bridge = b := rfl

omit [Machine σ] in
@[simp] theorem tickBudget_opened (b : Bridge σ) (tickBudget timeout : Span) :
    (opened b tickBudget timeout).tickBudget = tickBudget := rfl

/-- The loop of a new bridge has gone as far as it gets by itself. -/
theorem start_eq_ok {machine : σ} {settings : Settings} {c : Clocked σ} :
    Clocked.start machine settings = .ok c ↔
      ∃ b₀, Bridge.start machine settings = .ok b₀ ∧
        c = follow (opened b₀ settings.tickBudget settings.timeout) := by
  rw [Clocked.start]
  cases Bridge.start machine settings with
  | error e =>
    constructor
    · intro h
      cases h
    · rintro ⟨_, ⟨⟩, _⟩
  | ok b₀ =>
    constructor
    · intro h
      cases h
      exact ⟨b₀, rfl, rfl⟩
    · rintro ⟨_, ⟨⟩, rfl⟩
      rfl

/-- A new bridge whose loop has run as far as it gets by itself. -/
theorem reachable_start {machine : σ} {settings : Settings} {c : Clocked σ}
    (h : Clocked.start machine settings = .ok c) :
    ∃ b₀ xs, Bridge.start machine settings = .ok b₀ ∧
      Reachable allowed b₀ (c.stage (Ledger.empty.ran xs)) := by
  obtain ⟨b₀, hbridge, rfl⟩ := start_eq_ok.mp h
  have hopened : Reachable allowed b₀ (.opened b₀) := .opened
  obtain ⟨xs, hreach⟩ :=
    reachable_follow (c := opened b₀ settings.tickBudget settings.timeout) hopened
  exact ⟨b₀, xs, hbridge, hreach⟩

/-- Submitting, and what an idling loop does at once. -/
theorem reachable_submit {c : Clocked σ} (h : Reachable allowed b₀ (c.stage l))
    (request : Request) :
    ∃ xs, Reachable allowed b₀ ((c.submit request).2.stage
      ((l.submitted request c.bridge.intake.tick (c.submit request).1).ran xs)) := by
  have hsubmit := h.submit request
  rw [submit]
  split
  case h_1 hplace _ =>
    refine reachable_follow ?_
    rw [Clocked.stage, hplace] at hsubmit
    exact hsubmit
  case h_2 =>
    refine ⟨[], ?_⟩
    rw [Ledger.ran_nil]
    exact hsubmit

/-- The step finishes, and the loop goes on. -/
theorem reachable_advance {c : Clocked σ} (h : Reachable allowed b₀ (c.stage l)) :
    ∃ xs, Reachable allowed b₀ (c.advance.stage (l.ran xs)) := by
  rw [advance]
  split
  case h_1 o hplace =>
    rw [Clocked.stage, hplace] at h
    have hclosed := h.proceed
    dsimp only
    split
    · refine ⟨[], ?_⟩
      rw [Ledger.ran_nil]
      exact hclosed.unattended
    · exact reachable_follow hclosed
  case h_2 =>
    refine ⟨[], ?_⟩
    rw [Ledger.ran_nil]
    exact h

/-- The loop is asked to stop. It is between two ticks then, whatever has become of it. -/
theorem reachable_leave {c : Clocked σ} (h : Reachable allowed b₀ (c.stage l)) :
    c.leave.place.place = .idle ∧ Reachable allowed b₀ (c.leave.stage l) := by
  rw [leave]
  split
  case h_1 o hplace =>
    rw [Clocked.stage, hplace] at h
    dsimp only
    split
    · exact ⟨rfl, h.proceed.unattended⟩
    · exact ⟨rfl, h.proceed.unattended⟩
  case h_2 hplace =>
    rw [Clocked.stage, hplace] at h
    exact ⟨rfl, h.unattended⟩
  case h_3 hstepping hidling =>
    refine ⟨?_, h⟩
    cases hplace : c.place with
    | stepping o => exact absurd hplace (hstepping o)
    | idling => exact absurd hplace hidling
    | dead => rfl
    | ended => rfl

/-- Shutting down for the first time closes the queue, and reports what closing has cancelled. -/
theorem reachable_shutdown {c : Clocked σ} (h : Reachable allowed b₀ (c.stage l))
    (hfirst : c.isShutDown = false) :
    Reachable allowed b₀ (c.shutdown.2.stage
      (l.closed c.leave.bridge.intake.queue.waiting c.shutdown.1.cancelled)) := by
  obtain ⟨hplace, hleave⟩ := reachable_leave h
  have hclosed := hleave.close hplace
  rw [shutdown, hfirst]
  exact hclosed

end Clocked

/-! ### Runs -/

/-- The clocked bridges that the owner of a new one and its producers reach. Time passes by
itself. -/
inductive Clocked.Run (machine : σ) (settings : Settings) : Clocked σ → Prop
  | start {c : Clocked σ} : Clocked.start machine settings = .ok c → Run machine settings c
  | submit {c : Clocked σ} (request : Request) :
      Run machine settings c → Run machine settings (c.submit request).2
  | useFuture {c : Clocked σ} (id : Nat) (use : FutureUse) :
      Run machine settings c → Run machine settings { c with bridge := c.bridge.useFuture id use }
  | advance {c : Clocked σ} : Run machine settings c → Run machine settings c.advance
  | pass {c : Clocked σ} (reading : Span) :
      Run machine settings c → Run machine settings { c with reading := reading }
  | shutdown {c : Clocked σ} : Run machine settings c → Run machine settings c.shutdown.2

/-- The same clocked bridges, with the commands that were accepted on the way and with what each
shutdown has reported as cancelled, both in order. -/
inductive Clocked.Log (machine : σ) (settings : Settings) :
    List Command → List Nat → Clocked σ → Prop
  | start {c : Clocked σ} :
      Clocked.start machine settings = .ok c → Log machine settings [] [] c
  | submit {accepted : List Command} {reported : List Nat} {c : Clocked σ} {request : Request}
      {id : Nat} :
      Log machine settings accepted reported c → (c.submit request).1 = .ok id →
      Log machine settings (accepted ++ [⟨id, request, c.bridge.intake.tick⟩]) reported
        (c.submit request).2
  | refused {accepted : List Command} {reported : List Nat} {c : Clocked σ} {request : Request}
      {e : CommandError} :
      Log machine settings accepted reported c → (c.submit request).1 = .error e →
      Log machine settings accepted reported (c.submit request).2
  | useFuture {accepted : List Command} {reported : List Nat} {c : Clocked σ} (id : Nat)
      (use : FutureUse) :
      Log machine settings accepted reported c →
      Log machine settings accepted reported { c with bridge := c.bridge.useFuture id use }
  | advance {accepted : List Command} {reported : List Nat} {c : Clocked σ} :
      Log machine settings accepted reported c → Log machine settings accepted reported c.advance
  | pass {accepted : List Command} {reported : List Nat} {c : Clocked σ} (reading : Span) :
      Log machine settings accepted reported c →
      Log machine settings accepted reported { c with reading := reading }
  | shutdown {accepted : List Command} {reported : List Nat} {c : Clocked σ} :
      Log machine settings accepted reported c →
      Log machine settings accepted (reported ++ [c.shutdown.1.cancelled]) c.shutdown.2

namespace Clocked

variable {machine : σ} {settings : Settings} {accepted : List Command} {reported : List Nat}
  {c : Clocked σ}

/-- A run has a log. -/
theorem Run.exists_log (h : Run machine settings c) :
    ∃ accepted reported, Log machine settings accepted reported c := by
  induction h with
  | start hstart => exact ⟨_, _, .start hstart⟩
  | @submit c request _ ih =>
    obtain ⟨accepted, reported, hlog⟩ := ih
    cases hanswer : (c.submit request).1 with
    | ok id => exact ⟨_, _, hlog.submit hanswer⟩
    | error e => exact ⟨_, _, hlog.refused hanswer⟩
  | useFuture id use _ ih =>
    obtain ⟨accepted, reported, hlog⟩ := ih
    exact ⟨_, _, hlog.useFuture id use⟩
  | advance _ ih =>
    obtain ⟨accepted, reported, hlog⟩ := ih
    exact ⟨_, _, hlog.advance⟩
  | pass reading _ ih =>
    obtain ⟨accepted, reported, hlog⟩ := ih
    exact ⟨_, _, hlog.pass reading⟩
  | shutdown _ ih =>
    obtain ⟨accepted, reported, hlog⟩ := ih
    exact ⟨_, _, hlog.shutdown⟩

/-- Whether a bridge was shut down shows in its log. -/
theorem Log.isShutDown_eq_false (h : Log machine settings accepted reported c) :
    c.isShutDown = false ↔ reported = [] := by
  induction h with
  | start hstart =>
    obtain ⟨b₀, -, rfl⟩ := start_eq_ok.mp hstart
    exact iff_of_true (isShutDown_settle _ _) rfl
  | submit _ _ ih | refused _ _ ih => rwa [isShutDown_submit]
  | useFuture id use _ ih => exact ih
  | advance _ ih => rwa [isShutDown_advance]
  | pass reading _ ih => exact ih
  | shutdown _ _ => simp [isShutDown_shutdown]

/-- A clocked bridge is a reachable stage, and its ledger agrees with the log: the same commands
were accepted, and as many were reported as cancelled. -/
theorem Log.reachable (h : Log machine settings accepted reported c) :
    ∃ b₀ l, Bridge.start machine settings = .ok b₀ ∧
      Reachable (fun _ => False) b₀ (c.stage l) ∧ l.accepted = accepted ∧
      l.totalReported = reported.foldl (· + ·) 0 ∧ (l.reported = [] ↔ reported = []) := by
  induction h with
  | start hstart =>
    obtain ⟨b₀, xs, hbridge, hreach⟩ := reachable_start hstart
    exact ⟨b₀, _, hbridge, hreach, rfl, rfl, iff_of_true rfl rfl⟩
  | @submit accepted reported c request id _ hanswer ih =>
    obtain ⟨b₀, l, hbridge, hreach, haccepted, htotal, hreported⟩ := ih
    obtain ⟨xs, hsubmit⟩ := reachable_submit hreach request
    rw [hanswer] at hsubmit
    refine ⟨b₀, _, hbridge, hsubmit, ?_, htotal, hreported⟩
    rw [← haccepted]
    rfl
  | @refused accepted reported c request e _ hanswer ih =>
    obtain ⟨b₀, l, hbridge, hreach, hledger⟩ := ih
    obtain ⟨xs, hsubmit⟩ := reachable_submit hreach request
    rw [hanswer] at hsubmit
    exact ⟨b₀, _, hbridge, hsubmit, hledger⟩
  | useFuture id use _ ih =>
    obtain ⟨b₀, l, hbridge, hreach, hledger⟩ := ih
    exact ⟨b₀, l, hbridge, hreach.useFuture id use, hledger⟩
  | advance _ ih =>
    obtain ⟨b₀, l, hbridge, hreach, hledger⟩ := ih
    obtain ⟨xs, hadvance⟩ := reachable_advance hreach
    exact ⟨b₀, _, hbridge, hadvance, hledger⟩
  | pass reading _ ih => exact ih
  | @shutdown accepted reported c hlog ih =>
    obtain ⟨b₀, l, hbridge, hreach, haccepted, htotal, hreported⟩ := ih
    cases hdone : c.isShutDown with
    | true =>
      have hsame : c.shutdown = (⟨true, 0, c.recovered?.map (·.tick)⟩, c) := by
        rw [Clocked.shutdown, hdone, if_pos rfl]
      have hne : reported ≠ [] := by
        rw [Ne, ← hlog.isShutDown_eq_false, hdone]
        decide
      rw [hsame]
      exact ⟨b₀, l, hbridge, hreach, haccepted, by simpa using htotal, by simp [hreported, hne]⟩
    | false =>
      refine ⟨b₀, _, hbridge, reachable_shutdown hreach hdone, haccepted, ?_, ?_⟩
      · rw [Ledger.totalReported_closed, htotal, List.foldl_append]
        rfl
      · simp [Ledger.closed]

theorem Run.reachable (h : Run machine settings c) :
    ∃ b₀ l, Bridge.start machine settings = .ok b₀ ∧
      Reachable (fun _ => False) b₀ (c.stage l) := by
  obtain ⟨_, _, hlog⟩ := h.exists_log
  obtain ⟨b₀, l, hstart, hreach, -⟩ := hlog.reachable
  exact ⟨b₀, l, hstart, hreach⟩

end Clocked

end CommandBridge
