import CommandBridge.Proofs.Bridge.Agreement
import CommandBridge.Proofs.Bridge.Loop
import CommandBridge.Scripted.Machine

/-!
# How long a loop survives

A loop must not end before it is asked to. Two things can end it: a panic while a frame is built,
and a tick whose end the clock cannot name. The first is up to the machine (`Machine.AnswersInput`).
The second is a matter of the settings: the end of a tick is the reading of the clock plus the time
budget of a tick, and settings are acceptable although their budget is too long for any reading.

So the loop survives as long as the clock can name the end of a tick, and no longer
(`Clocked.survives_iff`); for some acceptable settings that is not even one tick
(`Clocked.not_survives_of_check`).

The induction is over runs whose ticks begin when the clock shows at most a given reading
(`Clocked.RunWithin`). What an idling loop does in a row is covered by `Clocked.running_settle`.
-/

namespace CommandBridge

open CommandBridge.Action

variable {σ : Type}

/-! ### Machines that answer -/

/-- No state to which a session can bring the machine panics when it is asked for input: there is
a property that survives whatever sessions do and that rules such a panic out. -/
def Machine.AnswersInput [Machine σ] (machine : σ) : Prop :=
  ∃ P Q : σ → Prop, P machine ∧ (∀ map, Machine.Keeps map P Q) ∧
    ∀ m, P m → ∀ c, ∃ raw, ((Machine.rawInput c : Action σ Buttons).run m).1 = .ok raw

namespace Scripted

/-- Nothing that a bridge does changes the script. -/
theorem keeps_faults (faults : Faults) (map : RegionMap) :
    Machine.Keeps map (fun m : Scripted => m.faults = faults) fun m => m.faults = faults where
  isLoaded _ h := h
  hasFeature _ _ h := h
  rawInput _ _ h := h
  step frame m h := by
    rw [Action.run]
    change (step frame m).2.faults = faults
    rw [step]
    split <;> exact h
  raise _ h := h
  peek a m h := (sameSetting_peek a m).faults_eq.trans h
  lower _ h := h
  writeRange start data :=
    keeps_writeRange (fun _ _ h => h) fun _ _ _ _ _ a _ value m h =>
      (sameSetting_poke a value m).faults_eq.trans h
  saveState slot m h := (sameSetting_saveState slot m).faults_eq.trans h
  loadState slot m h := (sameSetting_loadState slot m).faults_eq.trans h

/-- A scripted machine whose input is not scripted to panic. -/
theorem answersInput {s : Scripted} (h : s.faults.panicRaw = none) : Machine.AnswersInput s := by
  refine ⟨fun m => m.faults = s.faults, _, rfl, keeps_faults s.faults, ?_⟩
  intro m hm c
  have hanswer : ((Machine.rawInput c : Action Scripted Buttons).run m).1 = .ok (m.rawOf c) := by
    change (if m.faults.panicRaw = some c then .error (m.faults.payload "raw_input")
      else .ok (m.rawOf c)) = Except.ok (m.rawOf c)
    rw [hm, h]
    rfl
  exact ⟨_, hanswer⟩

end Scripted

namespace Session

variable [Machine σ]

theorem rawInputs_of_keeps {P : σ → Prop} (hkeeps : ∀ c, Keeps P (Machine.rawInput c))
    (hanswers : ∀ m, P m → ∀ c, ∃ raw, ((Machine.rawInput c : Action σ Buttons).run m).1 = .ok raw)
    (channels : List Channel) {m : σ} (hm : P m) :
    ∃ raws m', (rawInputs channels).run m = (.ok raws, m') := by
  induction channels generalizing m with
  | nil => exact ⟨_, _, rfl⟩
  | cons c rest ih =>
    obtain ⟨raw, hraw⟩ := hanswers m hm c
    obtain ⟨raws, m', hrest⟩ := ih (hkeeps c m hm)
    exact ⟨_, _, run_bind_eq_ok_iff.mpr ⟨raw, _, Prod.ext hraw rfl,
      run_bind_eq_ok_iff.mpr ⟨raws, m', hrest, rfl⟩⟩⟩

/-- A frame can be built if the machine answers for every channel. -/
theorem nextFrame_of_rawInputs {s : Session σ} {raws : List Buttons} {m : σ}
    (h : (rawInputs s.overlays.channels).run s.machine = (.ok raws, m)) :
    ∃ frame session, nextFrame.run s = (.ok frame, session) := by
  exact ⟨_, _, run_bind_eq_ok_iff.mpr ⟨s, s, rfl,
    run_bind_eq_ok_iff.mpr ⟨raws, _, run_onMachine h, rfl⟩⟩⟩

end Session

section

variable [Machine σ] {machine : σ} {settings : Settings} {b₀ b : Bridge σ} {l : Ledger}

/-- If the machine answers when it is asked for input, no panic gets out of a tick. -/
theorem Reachable.openTick_ok (hanswers : Machine.AnswersInput machine)
    (hstart : Bridge.start machine settings = .ok b₀)
    (h : Reachable (fun _ => False) b₀ ⟨b, .idle, l⟩) :
    ∃ o b', Bridge.openTick b = (.ok o, b') := by
  obtain ⟨P, Q, hmachine, hkeeps, hraw⟩ := hanswers
  have hinvariant : SessionInvariant (fun _ => False) fun _ (s : Session σ) =>
      s.regions = b₀.session.regions ∧ P s.machine :=
    .of_machine (hkeeps b₀.session.regions) fun _ _ hallowed => absurd hallowed id
  have hopened : b₀.session.regions = b₀.session.regions ∧ P b₀.session.machine := by
    obtain ⟨regions, -, -, rfl⟩ := Bridge.start_eq_ok.mp hstart
    exact ⟨rfl, hmachine⟩
  have hserved : P b.served.session.machine := (h.served.session_invariant hinvariant hopened).2
  obtain ⟨raws, m, hraws⟩ := Session.rawInputs_of_keeps (hkeeps b₀.session.regions).rawInput hraw
    b.served.session.overlays.channels hserved
  obtain ⟨frame, session, hnext⟩ := Session.nextFrame_of_rawInputs hraws
  rcases b.openTick_cases with ⟨-, hopen⟩ | ⟨_, _, -, -, hopen⟩ | ⟨p, session', -, hpanic, -⟩
  · exact ⟨_, _, hopen⟩
  · exact ⟨_, _, hopen⟩
  · rw [hnext] at hpanic
    cases hpanic

end

/-! ### Clocks -/

/-- The clock can name the end of a tick if its seconds have room in sixty-three bits. -/
theorem tickDeadline?_isSome {reading budget : Span} :
    (tickDeadline? reading budget).isSome ↔
      (reading.nanoseconds + budget.nanoseconds) / Span.perSecond < UInt64.size / 2 := by
  rw [tickDeadline?]
  split
  case isTrue h => exact ⟨fun _ => h, fun _ => rfl⟩
  case isFalse h => exact ⟨fun hsome => (by cases hsome), fun hlt => absurd hlt h⟩

/-- Earlier in the life of a clock the same budget has room, too. -/
theorem tickDeadline?_mono {reading uptime budget : Span}
    (hle : reading.nanoseconds ≤ uptime.nanoseconds)
    (h : (tickDeadline? uptime budget).isSome) : (tickDeadline? reading budget).isSome := by
  rw [tickDeadline?_isSome] at h ⊢
  exact Nat.lt_of_le_of_lt (Nat.div_le_div_right (Nat.add_le_add_right hle _)) h

/-! ### Loops that go on -/

/-- Whether the loop goes round. -/
def LoopPlace.isRunning : LoopPlace → Bool
  | .stepping _ | .idling => true
  | .dead | .ended => false

namespace Bridge

variable [Machine σ]

theorem alive_openTick (b : Bridge σ) : (openTick b).2.intake.alive = b.intake.alive := by
  have hserved : b.served.intake.alive = b.intake.alive :=
    served_of_runCommand (P := fun c => c.intake.alive = b.intake.alive) (fun _ _ hc => hc) rfl
  rcases b.openTick_cases with ⟨-, h⟩ | ⟨_, _, -, -, h⟩ | ⟨_, _, -, -, h⟩ <;> rw [h] <;> exact hserved

theorem alive_closeTick (o : OpenTick) (b : Bridge σ) :
    (closeTick o b).2.intake.alive = b.intake.alive := by
  rw [closeTick]
  cases o.frame <;> rfl

end Bridge

theorem Intake.alive_submit (i : Intake) (request : Request) :
    (i.submit request).2.alive = i.alive := by
  obtain ⟨_, _, hsubmit⟩ := i.exists_submit request
  rw [hsubmit]

namespace Clocked

variable [Machine σ] {machine : σ} {settings : Settings} {b₀ : Bridge σ} {l : Ledger}

/-- If no panic gets out of a tick and the clock can name its end, the loop goes on. -/
theorem running_settle (hanswers : Machine.AnswersInput machine)
    (hstart : Bridge.start machine settings = .ok b₀) {c : Clocked σ}
    (h : Reachable (fun _ => False) b₀ ⟨c.bridge, .idle, l⟩)
    (hdeadline : (tickDeadline? c.reading c.tickBudget).isSome) (fuel : Nat) :
    (settle fuel c).place.isRunning = true ∧ (settle fuel c).isAlive = c.isAlive := by
  induction fuel generalizing c l with
  | zero => exact ⟨rfl, rfl⟩
  | succ fuel ih =>
    obtain ⟨o, b, hopen⟩ := h.openTick_ok hanswers hstart
    have halive : b.intake.alive = c.isAlive := by
      have hopened := c.bridge.alive_openTick
      rw [hopen] at hopened
      exact hopened
    have hclosed : (Bridge.closeTick o b).2.intake.alive = c.isAlive :=
      (Bridge.alive_closeTick o b).trans halive
    have hnamed : (tickDeadline? c.reading c.tickBudget).isNone = false :=
      Option.isNone_eq_false_iff.mpr hdeadline
    rw [settle, hopen]
    cases hframe : o.frame with
    | some frame =>
      simp only [hframe]
      exact ⟨rfl, halive⟩
    | none =>
      simp only [hframe, hnamed, Bool.false_eq_true, ↓reduceIte]
      split
      · exact ⟨rfl, hclosed⟩
      · -- The tick is over and commands are left, so the loop goes round once more.
        have htick := h.tick
        rw [Bridge.tick, hopen] at htick
        obtain ⟨hrunning, halive'⟩ :=
          ih (c := { c with bridge := (Bridge.closeTick o b).2 }) htick hdeadline
        exact ⟨hrunning, halive'.trans hclosed⟩

/-! ### Runs up to a reading of the clock -/

theorem clock_settle (fuel : Nat) (c : Clocked σ) :
    (settle fuel c).reading = c.reading ∧ (settle fuel c).tickBudget = c.tickBudget := by
  induction fuel generalizing c with
  | zero => exact ⟨rfl, rfl⟩
  | succ fuel ih =>
    rw [settle]
    split
    · exact ⟨rfl, rfl⟩
    · split
      · exact ⟨rfl, rfl⟩
      · dsimp only
        split
        · exact ⟨rfl, rfl⟩
        · split
          · exact ⟨rfl, rfl⟩
          · exact ih _

end Clocked

/-- The clocked bridges of `Clocked.Run` whose ticks have begun when the clock showed at most
`uptime`. -/
inductive Clocked.RunWithin [Machine σ] (machine : σ) (settings : Settings) (uptime : Span) :
    Clocked σ → Prop
  | start {c : Clocked σ} :
      Clocked.start machine settings = .ok c → RunWithin machine settings uptime c
  | submit {c : Clocked σ} (request : Request) :
      RunWithin machine settings uptime c → RunWithin machine settings uptime (c.submit request).2
  | useFuture {c : Clocked σ} (id : Nat) (use : FutureUse) :
      RunWithin machine settings uptime c →
      RunWithin machine settings uptime { c with bridge := c.bridge.useFuture id use }
  | advance {c : Clocked σ} :
      RunWithin machine settings uptime c → RunWithin machine settings uptime c.advance
  | pass {c : Clocked σ} (reading : Span) :
      RunWithin machine settings uptime c → reading.nanoseconds ≤ uptime.nanoseconds →
      RunWithin machine settings uptime { c with reading := reading }
  | shutdown {c : Clocked σ} :
      RunWithin machine settings uptime c → RunWithin machine settings uptime c.shutdown.2

namespace Clocked

variable [Machine σ] {machine : σ} {settings : Settings} {uptime : Span} {c : Clocked σ}

theorem RunWithin.run (h : RunWithin machine settings uptime c) : Run machine settings c := by
  induction h with
  | start hstart => exact .start hstart
  | submit request _ ih => exact ih.submit request
  | useFuture id use _ ih => exact ih.useFuture id use
  | advance _ ih => exact ih.advance
  | pass reading _ _ ih => exact ih.pass reading
  | shutdown _ ih => exact ih.shutdown

/-- The tick has begun when the clock showed at most `uptime`, and the budget is that of the
settings. -/
def Punctual (settings : Settings) (uptime : Span) (c : Clocked σ) : Prop :=
  c.reading.nanoseconds ≤ uptime.nanoseconds ∧ c.tickBudget = settings.tickBudget

theorem Punctual.settle (h : c.Punctual settings uptime) (fuel : Nat) :
    (settle fuel c).Punctual settings uptime := by
  obtain ⟨hreading, hbudget⟩ := clock_settle fuel c
  rw [Punctual, hreading, hbudget]
  exact h

theorem Punctual.leave (h : c.Punctual settings uptime) : c.leave.Punctual settings uptime := by
  rw [Clocked.leave]
  split
  · dsimp only
    split <;> exact h
  · exact h
  · exact h

/-- It is inside its first step. -/
theorem stepping_of_start (hanswers : Machine.AnswersInput machine)
    (hstart : Clocked.start machine settings = .ok c) : ∃ o, c.place = .stepping o := by
  obtain ⟨b₀, hbridge, rfl⟩ := start_eq_ok.mp hstart
  have hopened : Reachable (fun _ => False) b₀ (.opened b₀) := .opened
  obtain ⟨o, b, hopen⟩ := hopened.openTick_ok hanswers hbridge
  have hpaused : b₀.served.session.paused = false := by
    obtain ⟨regions, -, -, rfl⟩ := Bridge.start_eq_ok.mp hbridge
    simp [Bridge.served, Bridge.batch, Bridge.drained, Bridge.runCommands, Queue.drain,
      Intake.start, Queue.empty]
  rcases b₀.openTick_cases with ⟨hcontra, -⟩ | ⟨frame, session, -, -, hcase⟩ |
    ⟨p, session, -, -, hcase⟩
  · rw [hpaused] at hcontra
    cases hcontra
  · refine ⟨⟨b₀.outcomes, b₀.drained.intake.queue.length, some frame⟩, ?_⟩
    rw [follow, settle, bridge_opened, hcase]
  · rw [hcase] at hopen
    cases hopen

theorem RunWithin.punctual (h : RunWithin machine settings uptime c) :
    c.Punctual settings uptime := by
  induction h with
  | start hstart =>
    obtain ⟨b₀, -, rfl⟩ := start_eq_ok.mp hstart
    exact Punctual.settle ⟨Nat.zero_le _, tickBudget_opened b₀ _ _⟩ _
  | @submit c request _ ih =>
    rw [Clocked.submit]
    split
    · exact Punctual.settle (c := { c with bridge := (c.bridge.submit request).2 }) ih _
    · exact ih
  | useFuture id use _ ih => exact ih
  | @advance c _ ih =>
    rw [Clocked.advance]
    split
    · dsimp only
      split
      · exact ih
      · exact Punctual.settle (c := { c with bridge := (Bridge.closeTick _ c.bridge).2 }) ih _
    · exact ih
  | pass reading _ hle ih => exact ⟨hle, ih.2⟩
  | @shutdown c _ ih =>
    rw [Clocked.shutdown]
    split
    · exact ih
    · exact ih.leave

/-! ### Survival -/

/-- The loop goes round until it is asked to stop, and then gives the session back. -/
structure Goes (c : Clocked σ) : Prop where
  /-- Until then the queue is drained. -/
  running : c.isShutDown = false → c.place.isRunning = true ∧ c.isAlive = true
  recovered : c.isShutDown = true → c.recovered?.isSome = true

/-- In addition, stopping the loop finds it in good order. -/
structure Survives (c : Clocked σ) : Prop extends Goes c where
  joined : c.shutdown.1.ended = true

omit [Machine σ] in
theorem recovered?_isSome : c.recovered?.isSome = true ↔ c.place = .ended := by
  rw [recovered?]
  cases c.place <;> simp

theorem follow_goes (hanswers : Machine.AnswersInput machine)
    {b₀ : Bridge σ} {l : Ledger} (hstart : Bridge.start machine settings = .ok b₀)
    (hreach : Reachable (fun _ => False) b₀ ⟨c.bridge, .idle, l⟩)
    (hdeadline : (tickDeadline? c.reading c.tickBudget).isSome)
    (hopen : c.isShutDown = false) (halive : c.isAlive = true) : c.follow.Goes := by
  obtain ⟨hrunning, halive'⟩ := running_settle hanswers hstart hreach hdeadline
    (c.bridge.intake.queue.length + 1)
  refine ⟨fun _ => ⟨hrunning, halive'.trans halive⟩, ?_⟩
  intro hdone
  rw [follow, isShutDown_settle, hopen] at hdone
  cases hdone

namespace Goes

omit [Machine σ] in
/-- A loop that is somewhere in a tick or idles was not asked to stop. -/
theorem isShutDown_of_isRunning (h : c.Goes) (hrunning : c.place.isRunning = true) :
    c.isShutDown = false := by
  cases hdone : c.isShutDown with
  | false => rfl
  | true =>
    rw [recovered?_isSome.mp (h.recovered hdone)] at hrunning
    cases hrunning

variable {b₀ : Bridge σ} {l : Ledger}

theorem submit (h : c.Goes) (hanswers : Machine.AnswersInput machine)
    (hstart : Bridge.start machine settings = .ok b₀)
    (hreach : Reachable (fun _ => False) b₀ (c.stage l))
    (hdeadline : (tickDeadline? c.reading c.tickBudget).isSome) (request : Request) :
    (c.submit request).2.Goes := by
  have halive : (c.bridge.submit request).2.intake.alive = c.isAlive :=
    c.bridge.intake.alive_submit request
  rw [Clocked.submit]
  split
  case h_1 hplace _ =>
    -- The idling loop runs the new command at once.
    have hopen : c.isShutDown = false := h.isShutDown_of_isRunning (by rw [hplace]; rfl)
    have hsubmit := hreach.submit request
    rw [Clocked.stage, hplace] at hsubmit
    exact follow_goes (c := { c with bridge := (c.bridge.submit request).2 }) hanswers hstart
      hsubmit hdeadline hopen (halive.trans (h.running hopen).2)
  case h_2 =>
    refine ⟨fun hopen => ⟨(h.running hopen).1, halive.trans (h.running hopen).2⟩, ?_⟩
    intro hdone
    exact recovered?_isSome.mpr (recovered?_isSome.mp (h.recovered hdone))

theorem advance (h : c.Goes) (hanswers : Machine.AnswersInput machine)
    (hstart : Bridge.start machine settings = .ok b₀)
    (hreach : Reachable (fun _ => False) b₀ (c.stage l))
    (hdeadline : (tickDeadline? c.reading c.tickBudget).isSome) : c.advance.Goes := by
  have hnamed : (tickDeadline? c.reading c.tickBudget).isNone = false :=
    Option.isNone_eq_false_iff.mpr hdeadline
  rw [Clocked.advance]
  split
  case h_1 o hplace =>
    have hopen : c.isShutDown = false := h.isShutDown_of_isRunning (by rw [hplace]; rfl)
    rw [Clocked.stage, hplace] at hreach
    have halive : (Bridge.closeTick o c.bridge).2.intake.alive = c.isAlive :=
      Bridge.alive_closeTick o c.bridge
    simp only [hnamed, Bool.false_eq_true, ↓reduceIte]
    exact follow_goes (c := { c with bridge := (Bridge.closeTick o c.bridge).2 }) hanswers hstart
      hreach.proceed hdeadline hopen (halive.trans (h.running hopen).2)
  case h_2 => exact h

/-- A loop that goes round leaves in good order when it is asked to. -/
theorem ended_leave (h : c.Goes) (hopen : c.isShutDown = false)
    (hdeadline : (tickDeadline? c.reading c.tickBudget).isSome) : c.leave.place = .ended := by
  have hnamed : (tickDeadline? c.reading c.tickBudget).isNone = false :=
    Option.isNone_eq_false_iff.mpr hdeadline
  have hrunning := (h.running hopen).1
  rw [leave]
  split
  case h_1 => simp only [hnamed, Bool.false_eq_true, ↓reduceIte]
  case h_2 => rfl
  case h_3 hstepping hidling =>
    cases hplace : c.place with
    | stepping o => exact absurd hplace (hstepping o)
    | idling => exact absurd hplace hidling
    | dead => rw [hplace] at hrunning; cases hrunning
    | ended => rfl

theorem shutdown (h : c.Goes) (hdeadline : (tickDeadline? c.reading c.tickBudget).isSome) :
    c.shutdown.2.Goes ∧ c.shutdown.1.ended = true := by
  rw [Clocked.shutdown]
  cases hdone : c.isShutDown with
  | true => exact ⟨h, rfl⟩
  | false =>
    have hplace := h.ended_leave hdone hdeadline
    have hrecovered : ({ c.leave with
        bridge := c.leave.bridge.close.2, isShutDown := true } : Clocked σ).recovered?.isSome :=
      recovered?_isSome.mpr hplace
    exact ⟨⟨fun hopen => (by cases hopen), fun _ => hrecovered⟩, hrecovered⟩

end Goes

/-- As long as the clock can name the end of every tick, the loop survives. -/
theorem RunWithin.survives (hanswers : Machine.AnswersInput machine)
    (hdeadline : (tickDeadline? uptime settings.tickBudget).isSome)
    (h : RunWithin machine settings uptime c) : c.Survives := by
  have hnamed : ∀ {d : Clocked σ}, RunWithin machine settings uptime d →
      (tickDeadline? d.reading d.tickBudget).isSome := by
    intro d hd
    obtain ⟨hreading, hbudget⟩ := hd.punctual
    rw [hbudget]
    exact tickDeadline?_mono hreading hdeadline
  have hgoes : c.Goes := by
    induction h with
    | @start c hstart =>
      obtain ⟨b₀, hbridge, rfl⟩ := start_eq_ok.mp hstart
      have halive : b₀.intake.alive = true := by
        obtain ⟨regions, -, -, rfl⟩ := Bridge.start_eq_ok.mp hbridge
        rfl
      have hzero : (tickDeadline? (opened b₀ settings.tickBudget settings.timeout).reading
          (opened b₀ settings.tickBudget settings.timeout).tickBudget).isSome := by
        rw [tickBudget_opened]
        exact tickDeadline?_mono (Nat.zero_le _) hdeadline
      exact follow_goes hanswers hbridge (Reachable.opened (b := b₀)) hzero rfl halive
    | submit request hc ih =>
      obtain ⟨b₀, l, hbridge, hreach⟩ := hc.run.reachable
      exact ih.submit hanswers hbridge hreach (hnamed hc) request
    | useFuture id use _ ih => exact ⟨ih.running, ih.recovered⟩
    | advance hc ih =>
      obtain ⟨b₀, l, hbridge, hreach⟩ := hc.run.reachable
      exact ih.advance hanswers hbridge hreach (hnamed hc)
    | pass reading _ _ ih => exact ⟨ih.running, ih.recovered⟩
    | shutdown hc ih => exact (ih.shutdown (hnamed hc)).1
  exact ⟨hgoes, (hgoes.shutdown (hnamed h)).2⟩

/-- A loop that finishes a tick whose end the clock cannot name is lost. -/
theorem dead_advance {o : OpenTick} (hplace : c.place = .stepping o)
    (hdeadline : ¬ (tickDeadline? c.reading c.tickBudget).isSome = true) :
    c.advance.place = .dead := by
  have hunnamed : (tickDeadline? c.reading c.tickBudget).isNone = true := by
    simpa using hdeadline
  rw [advance, hplace]
  simp only [hunnamed, ↓reduceIte]
  rfl

end Clocked

/-- Acceptable settings start a bridge. -/
theorem Bridge.exists_start {settings : Settings} (hcheck : settings.check = .ok ())
    (machine : σ) : ∃ b, Bridge.start machine settings = .ok b := by
  obtain ⟨-, -, -, -, -, -, hregions⟩ := Settings.check_eq_ok.mp hcheck
  have hmap : RegionMap.ofRegions settings.regions = .ok ⟨sortRegions settings.regions⟩ := by
    rw [RegionMap.ofRegions, hregions]
    rfl
  exact ⟨_, Bridge.start_eq_ok.mpr ⟨_, hcheck, hmap, rfl⟩⟩

namespace Clocked

variable [Machine σ] {machine : σ} {settings : Settings} {uptime : Span}

/-- If the clock cannot name the end of a tick that begins when it shows `uptime`, then a loop whose
first tick begins at that time is lost at the end of this tick. -/
theorem exists_dead (hcheck : settings.check = .ok ()) (hanswers : Machine.AnswersInput machine)
    (uptime : Span) (hdeadline : ¬ (tickDeadline? uptime settings.tickBudget).isSome = true) :
    ∃ c, RunWithin machine settings uptime c ∧ c.isShutDown = false ∧ c.place = .dead := by
  obtain ⟨b₀, hbridge⟩ := Bridge.exists_start hcheck machine
  have hstart : Clocked.start machine settings = .ok _ := start_eq_ok.mpr ⟨b₀, hbridge, rfl⟩
  obtain ⟨o, hplace⟩ := stepping_of_start hanswers hstart
  have hrun : RunWithin machine settings uptime _ := .pass uptime (.start hstart) (Nat.le_refl _)
  refine ⟨_, hrun.advance, ?_, dead_advance hplace ?_⟩
  · rw [isShutDown_advance]
    exact isShutDown_settle _ _
  · rw [hrun.punctual.2]
    exact hdeadline

/-- For acceptable settings and a machine that answers when it is asked for input, the loop
survives all runs whose ticks begin when the clock shows at most `uptime`, exactly if the clock can
name the end of a tick that begins when it shows `uptime`. -/
theorem survives_iff (hcheck : settings.check = .ok ()) (hanswers : Machine.AnswersInput machine)
    (uptime : Span) :
    (∀ c, RunWithin machine settings uptime c → c.Survives) ↔
      (tickDeadline? uptime settings.tickBudget).isSome = true := by
  constructor
  · intro hsurvives
    refine Decidable.byContradiction fun hdeadline => ?_
    obtain ⟨c, hrun, hopen, hdead⟩ := exists_dead hcheck hanswers uptime hdeadline
    have hrunning := ((hsurvives c hrun).running hopen).1
    rw [hdead] at hrunning
    cases hrunning
  · exact fun hdeadline c hrun => hrun.survives hanswers hdeadline

/-- With the standard settings a loop is stopped in good order when the clock shows a billion
seconds. -/
theorem joined_standard :
    ∃ c, start (Scripted.fresh true false Faults.none) .standard = .ok c ∧
      ({ c with reading := Span.ofSeconds 1000000000 } : Clocked Scripted).advance.shutdown.1.ended =
        true := by
  have hstart := start_eq_ok.mpr
    ⟨_, Bridge.start_standard (Scripted.fresh true false Faults.none), rfl⟩
  refine ⟨_, hstart, ?_⟩
  have hrun : RunWithin (Scripted.fresh true false Faults.none) .standard
      (Span.ofSeconds 1000000000) _ := (RunWithin.pass _ (.start hstart) (Nat.le_refl _)).advance
  exact ((survives_iff Settings.check_standard (Scripted.answersInput rfl) _).mpr
    (by decide +kernel) _ hrun).joined

end Clocked

/-- The standard settings with `10 ^ -19` ticks per second. -/
def Settings.slow : Settings := { standard with tickRate := ⟨0x3bfd83c94fb6d2ac⟩ }

/-- One over the rate is a span of ten to the nineteenth seconds, for which there is room. -/
theorem Settings.check_slow : slow.check = .ok () := check_of_isUsableRate (by decide +kernel)

/-- The first tick of such a bridge ends at a moment that the clock cannot name, whatever it showed
when the tick began. -/
theorem Clocked.not_survives_of_check :
    ¬ ∀ (settings : Settings) (machine : Scripted) (c : Clocked Scripted),
      settings.check = .ok () → Machine.AnswersInput machine → Run machine settings c →
      c.Survives := by
  intro h
  have hanswers : Machine.AnswersInput (Scripted.fresh true false Faults.none) :=
    Scripted.answersInput rfl
  obtain ⟨c, hrun, hopen, hdead⟩ := exists_dead Settings.check_slow hanswers ⟨0⟩ (by decide +kernel)
  have hrunning := ((h _ _ c Settings.check_slow hanswers hrun.run).running hopen).1
  rw [hdead] at hrunning
  cases hrunning

end CommandBridge
