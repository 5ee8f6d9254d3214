import CommandBridge.Proofs.Bridge.Accounts
import CommandBridge.Proofs.Bridge.Failures
import CommandBridge.Proofs.Bridge.Standstill

/-!
# Ticks that are cut short

Of all panics only one gets out of a tick: that of a machine which is asked for its input while the
frame of the next step is built. It cuts the tick short between its two halves. Its commands have
been run and completed by then, and the rest of the tick is just left out: nothing of it has begun,
so nothing is lost (`Bridge.cut_tick_loses_nothing`).

A tick that is cut short leaves the bridge that its commands have left (`Bridge.eq_served_of_cut`).
This is compared with three things: with the commands run one after the other, with the bridge
before the tick, and with `Bridge.skippedTick`, the tick that runs the same commands, takes no step
and is completed, as in a paused session (`Bridge.tick_of_paused`). The time after it is that of
`Stage.Unstepped`: the next tick that is completed has the number of the one that was cut short, and
overlays lapse as if that one had not been.
-/

namespace CommandBridge

open CommandBridge.Action

variable {σ : Type} [Machine σ]

/-! ### What a machine records of its steps -/

/-- Among the operations that may change a machine, only stepping changes the record. -/
structure Machine.WrittenBySteps {α : Type} (record : σ → α) : Prop where
  setInspection (active : Bool) (m : σ) : record (Machine.setInspection active m) = record m
  peek (a : Address) (m : σ) : record ((Machine.peek a).run m).2 = record m
  poke (a : Address) (value : UInt8) (m : σ) : record ((Machine.poke a value).run m).2 = record m
  saveState (slot : UInt8) (m : σ) : record ((Machine.saveState slot).run m).2 = record m
  loadState (slot : UInt8) (m : σ) : record ((Machine.loadState slot).run m).2 = record m

/-- The frames that a scripted machine has recorded. -/
theorem Scripted.frames_writtenBySteps : Machine.WrittenBySteps Scripted.frames where
  setInspection _ _ := rfl
  peek a m := (sameSetting_peek a m).frames_eq
  poke a value m := (sameSetting_poke a value m).frames_eq
  saveState slot m := (sameSetting_saveState slot m).frames_eq
  loadState slot m := (sameSetting_loadState slot m).frames_eq

/-- No request writes to the record. -/
theorem Machine.WrittenBySteps.handle {α : Type} {record : σ → α}
    (hrecord : Machine.WrittenBySteps record) (hdiscreet : Machine.Discreet σ) (request : Request)
    (s : Session σ) :
    record ((Session.handle request).run s).2.machine = record s.machine := by
  have hfeature : ∀ f, Action.Keeps (record · = record s.machine) (Machine.hasFeature f) := by
    intro f m hm
    rwa [hdiscreet.hasFeature]
  have hwrite : ∀ start data,
      Action.Keeps (record · = record s.machine) (writeRange s.regions start data) := fun start data =>
    keeps_writeRange hfeature fun _ _ _ _ _ a _ value m hm => (hrecord.poke a value m).trans hm
  have hmachine : Session.KeptByMachine fun t : Session σ =>
      t.regions = s.regions ∧ record t.machine = record s.machine := by
    refine .of_machine (Q := (record · = record s.machine)) ?_ hfeature ?_
      (fun m hm => (hrecord.setInspection true m).trans hm)
      (fun a m hm => (hrecord.peek a m).trans hm)
      (fun m hm => (hrecord.setInspection false m).trans hm) hwrite
      (fun slot m hm => (hrecord.saveState slot m).trans hm)
      (fun slot m hm => (hrecord.loadState slot m).trans hm)
    · intro m hm
      rwa [hdiscreet.isLoaded]
    · intro c m hm
      rwa [hdiscreet.rawInput]
  exact (Session.keeps_handle hmachine (fun _ _ ht => ht) request (fun _ _ _ _ ht _ => ht) s
    ⟨rfl, rfl⟩).2

/-! ### The commands of a tick -/

namespace Bridge

theorem length_outcomes_eq (b : Bridge σ) : b.outcomes.length = b.batch.length :=
  length_runCommands _ _

theorem commands_executions (b : Bridge σ) : b.executions.map (·.command) = b.batch := by
  rw [executions, ← List.map_uncurry_zip_eq_zipWith, List.map_map]
  exact List.map_fst_zip (Nat.le_of_eq b.length_outcomes_eq.symm)

theorem outcomes_executions (b : Bridge σ) : b.executions.map (·.outcome) = b.outcomes := by
  rw [executions, ← List.map_uncurry_zip_eq_zipWith, List.map_map]
  exact List.map_snd_zip (Nat.le_of_eq b.length_outcomes_eq)

/-- Running commands completes them in order and does nothing else to the queue. -/
theorem queue_runCommands (b : Bridge σ) (commands : List Command) :
    (b.runCommands commands).2.intake.queue =
      (commands.zipWith Execution.mk (b.runCommands commands).1).foldl
        (fun q x => q.complete x.command.id x.outcome) b.intake.queue := by
  induction commands generalizing b with
  | nil => rfl
  | cons command rest ih => exact ih (b.runCommand command).2

/-- Running commands publishes no tick. -/
theorem published_served (b : Bridge σ) : b.served.intake.tick = b.intake.tick :=
  served_of_runCommand (P := fun c => c.intake.tick = b.intake.tick) (fun _ _ hc => hc) rfl

theorem record_served {α : Type} {record : σ → α} (hrecord : Machine.WrittenBySteps record)
    (hdiscreet : Machine.Discreet σ) (b : Bridge σ) :
    record b.served.session.machine = record b.session.machine :=
  served_of_runCommand (P := fun c => record c.session.machine = record b.session.machine)
    (fun c command hc => (hrecord.handle hdiscreet command.request c.session).trans hc) rfl

/-! ### The rest of the tick -/

/-- The tick that runs its commands, takes no step and is completed. -/
def skippedTick (b : Bridge σ) : TickReport × Bridge σ :=
  closeTick ⟨b.outcomes, b.drained.intake.queue.length, none⟩ b.served

/-- In a paused session this is what a tick does. -/
theorem tick_of_paused {b : Bridge σ} (h : b.served.session.paused = true) :
    tick b = (.ok b.skippedTick.1, b.skippedTick.2) := by
  rcases b.openTick_cases with ⟨-, hcase⟩ | ⟨_, _, hrunning, -, -⟩ | ⟨_, _, hrunning, -, -⟩
  · rw [tick, hcase]
    rfl
  · rw [h] at hrunning
    cases hrunning
  · rw [h] at hrunning
    cases hrunning

/-- A tick that is cut short leaves what its commands have left. -/
theorem eq_served_of_cut (hdiscreet : Machine.Discreet σ) {b b' : Bridge σ} {p : Panic}
    (h : tick b = (.error p, b')) : b' = b.served := by
  rcases b.openTick_cases with ⟨-, hcase⟩ | ⟨frame, session, -, -, hcase⟩ |
    ⟨p', session, -, hnext, hcase⟩
  · rw [tick, hcase] at h
    cases h
  · rw [tick, hcase] at h
    cases h
  · have hsession := hdiscreet.nextFrame_snd b.served.session
    rw [hnext] at hsession
    rw [tick, hcase] at h
    cases h
    cases hsession
    rfl

/-- The second bridge has come no further than the first one: it is at the same tick and has
published the same one, has the same record of its steps, and has counted no tick, none of the
commands that ticks leave waiting, and no step. -/
structure AsFarAs {α : Type} (record : σ → α) (b b' : Bridge σ) : Prop where
  tick_eq : b'.session.tick = b.session.tick
  published_eq : b'.intake.tick = b.intake.tick
  record_eq : record b'.session.machine = record b.session.machine
  ticks_eq : b'.intake.counters.ticks = b.intake.counters.ticks
  deferred_eq : b'.intake.counters.deferred = b.intake.counters.deferred
  stepFailures_eq : b'.intake.counters.stepFailures = b.intake.counters.stepFailures

theorem asFarAs_served {α : Type} {record : σ → α} (hrecord : Machine.WrittenBySteps record)
    (hdiscreet : Machine.Discreet σ) (b : Bridge σ) : b.AsFarAs record b.served := by
  obtain ⟨executed, failed, panics, hcounters⟩ := b.counters_served
  refine ⟨b.tick_served, b.published_served, b.record_served hrecord hdiscreet, ?_, ?_, ?_⟩ <;>
    rw [hcounters]

/-! ### The next tick -/

/-- A report names the tick at which its tick began. -/
theorem tick_of_report {b c : Bridge σ} {r : TickReport} (h : tick b = (.ok r, c)) :
    r.tick = b.session.tick := by
  rcases b.openTick_cases with ⟨-, hcase⟩ | ⟨frame, session, -, hnext, hcase⟩ |
    ⟨p, session, -, -, hcase⟩
  · rw [tick, hcase] at h
    cases h
    exact b.tick_served
  · have htick := b.served.session.tick_nextFrame
    rw [hnext] at htick
    rw [tick, hcase] at h
    cases h
    exact htick.trans b.tick_served
  · rw [tick, hcase] at h
    cases h

end Bridge

/-- A step is taken at the current tick, advances it, and lets overlays lapse. -/
theorem Stage.step_of_proceed {t : Stage σ} {o : OpenTick} {frame : InputFrame}
    (hplace : t.proceed.place = .stepping o) (hframe : o.frame = some frame) :
    (∃ raw, frame = t.bridge.session.overlays.frame t.bridge.session.tick raw) ∧
      t.proceed.proceed.bridge.session.tick = t.bridge.session.tick.next ∧
      t.proceed.proceed.bridge.session.overlays =
        t.bridge.session.overlays.expire t.bridge.session.tick.next := by
  obtain ⟨raws, m, -, hsession, hbuilt⟩ :=
    Session.nextFrame_eq_ok (Stage.nextFrame_of_proceed hplace hframe)
  have hstep : t.proceed.proceed.bridge.session = (t.proceed.bridge.session.step frame).2 := by
    rw [Stage.proceed, hplace]
    simp only [Bridge.closeTick, hframe]
  rw [hstep, hsession]
  exact ⟨⟨_, hbuilt⟩, rfl, rfl⟩

/-- If a tick is cut short by a panic, its commands have been run one after the other and completed
in this order, and the rest of the tick has not begun. The bridge has come no further than before
the tick, and but for the count of ticks and of commands left waiting it is the one that the tick
would have left if it had skipped the step. However long it takes, the next tick that is completed
has the same number, and until a command changes them the overlays lapse as if the tick had not
been: the next frame is made from them, for the tick that was cut short, and nothing lapses before
the step is taken. -/
theorem Bridge.cut_tick_loses_nothing {α : Type} {record : σ → α}
    (hdiscreet : Machine.Discreet σ) (hrecord : Machine.WrittenBySteps record) {b b' : Bridge σ}
    {p : Panic} (h : tick b = (.error p, b')) :
    (b.executions.map (·.command) = b.batch ∧
      Session.runAll (b.batch.map (·.request)) b.session =
        (b.executions.map (·.outcome), b'.session) ∧
      b'.intake.queue = b.executions.foldl (fun q x => q.complete x.command.id x.outcome)
        b.drained.intake.queue ∧
      ∀ (machine : σ) settings b₀ allowed l, start machine settings = .ok b₀ →
        Reachable allowed b₀ ⟨b, .idle, l⟩ → ∀ x ∈ b.executions,
          b'.intake.queue.HasTicket x.command.id (Ticket.Delivered x.outcome)) ∧
    b.AsFarAs record b' ∧
    b.skippedTick.2 = { b' with intake := { b'.intake with
      counters := b'.intake.counters.countTick b.drained.intake.queue.length } } ∧
    ∀ allowed runs l t, Stage.Unstepped allowed runs ⟨b', .idle, l⟩ t →
      (∀ r c, t.place = .idle → tick t.bridge = (.ok r, c) → r.tick = b.session.tick) ∧
      ∀ o frame, t.proceed.place = .stepping o → o.frame = some frame →
        frame.tick = b.session.tick ∧
        t.proceed.proceed.bridge.session.tick = b.session.tick.next ∧
        ((∀ request, runs request → request.overlayChannel? = none) →
          (∃ raw, frame = b'.session.overlays.frame b.session.tick raw) ∧
          t.proceed.proceed.bridge.session.overlays =
            b'.session.overlays.expire b.session.tick.next) := by
  obtain rfl := eq_served_of_cut hdiscreet h
  refine ⟨⟨b.commands_executions, ?_, b.drained.queue_runCommands b.batch, ?_⟩,
    b.asFarAs_served hrecord hdiscreet, rfl, ?_⟩
  · rw [b.outcomes_executions]
    exact b.drained.runAll_eq_runCommands b.batch
  · intro machine settings b₀ allowed l hstart hreachable x hx
    exact (hreachable.served.balanced hstart).executed x (List.mem_append_right _ hx)
  · intro allowed runs l t hunstepped
    have htick := hunstepped.tick_eq.trans b.tick_served
    refine ⟨fun r c _ hreport => (tick_of_report hreport).trans htick, ?_⟩
    intro o frame hplace hframe
    obtain ⟨⟨raw, rfl⟩, hnext, hexpired⟩ := Stage.step_of_proceed hplace hframe
    rw [htick] at hnext hexpired
    refine ⟨htick, hnext, fun hruns => ?_⟩
    have hoverlays := hunstepped.overlays_eq hruns
    rw [hoverlays] at hexpired
    exact ⟨⟨raw, by rw [hoverlays, htick]⟩, hexpired⟩

/-- The input of a channel panics in the first tick. After a repair that tick is made up for. -/
theorem Bridge.cut_tick_made_up :
    let faults := { Faults.none with panicRaw := some ⟨0⟩ }
    let b := ((standard (Scripted.fresh true false faults)).submit
      (.setOverlay ⟨1⟩ ⟨4⟩ .none (some (.ticks 1)))).2
    let cut := (tick b).2
    let repaired := cut.changeMachine fun m => { m with faults := Faults.none }
    (tick b).1 = .error .silent ∧ cut.session.machine.frames = #[] ∧
      ∃ r c, tick repaired = (.ok r, c) ∧ r.tick = Tick.zero ∧
        c.session.machine.frames = #[⟨Tick.zero, [.none, ⟨4⟩, .none, .none]⟩] := by
  obtain ⟨-, hbefore, -, hlater⟩ := cut_tick_loses_nothing Scripted.discreet
    Scripted.frames_writtenBySteps (b := ((standard (Scripted.fresh true false
      { Faults.none with panicRaw := some ⟨0⟩ })).submit
        (.setOverlay ⟨1⟩ ⟨4⟩ .none (some (.ticks 1)))).2) rfl
  have hrepaired := hlater (fun _ => True) (fun _ => True) .empty _
    (.outside (fun m => { m with faults := Faults.none }) .now trivial)
  exact ⟨rfl, hbefore.record_eq, _, _, rfl, hrepaired.1 _ _ rfl rfl, rfl⟩

end CommandBridge
