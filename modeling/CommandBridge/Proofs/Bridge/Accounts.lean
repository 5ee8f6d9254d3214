import CommandBridge.Proofs.Bridge.Counting
import CommandBridge.Scripted.Machine

/-!
# The counters add up

The counters of a bridge are changed in four places: where a submission is refused, where a command
ends, where a step fails, and at the end of a tick. A panic that gets out of a tick skips the last
two. This module proves that nothing is counted twice and nothing is lost all the same: what the
counters say is what happened, up to wrapping around (`Bridge.Audit.counters_conserved`).

What happened is written down beside the bridge. An `Account` adds to the ledger what only shows
between whole operations: every submission with its answer, and every completed tick with its
report. `Bridge.Audit` says which accounts and bridges belong together.

The invariant along a run is `Account.Agrees`. Two lemmas say what an operation counts:
`Intake.verdict_submit` for a submission, and `Bridge.tick_describes` for a tick, which either is
described by its report or was left by a panic.
-/

namespace CommandBridge

variable {σ : Type}

/-! ### Accounts -/

/-- What a producer learns from submitting a request. -/
inductive Verdict
  | accepted
  /-- Refused by admission. -/
  | invalid
  /-- Refused by a full queue. -/
  | full
  /-- Refused by a closed queue. -/
  | late
  deriving DecidableEq

def Verdict.of : Outcome Nat → Verdict
  | .ok _ => .accepted
  | .error .queueFull => .full
  | .error .shutdown => .late
  | .error _ => .invalid

/-- What has happened to a bridge, as its owner and its producers have seen it. -/
structure Account where
  /-- What has become of the commands. -/
  ledger : Ledger
  /-- Every submission with its answer, in order. -/
  submissions : List (Request × Outcome Nat)
  /-- The reports of all completed ticks, in order, each with the number of commands that waited
  when the tick began. -/
  ticks : List (Nat × TickReport)

namespace Account

def empty : Account := ⟨.empty, [], []⟩

/-- How many submissions have had a verdict. -/
def submitted (a : Account) (v : Verdict) : Nat :=
  a.submissions.countP fun x => Verdict.of x.2 = v

/-- How many of the completed ticks have stepped the machine. -/
def stepped (a : Account) : Nat := a.ticks.countP (·.2.stepped)

/-- How many steps have failed. -/
def stepFailures (a : Account) : Nat := a.ticks.countP (·.2.stepFailed)

/-- How many commands the completed ticks have left waiting, added up. -/
def deferred (a : Account) : Nat := a.ticks.foldl (fun n x => n + x.2.deferred) 0

/-- The account after a submission to a bridge. -/
def submit (a : Account) (b : Bridge σ) (request : Request) : Account :=
  { a with
    ledger := a.ledger.submitted request b.intake.tick (b.submit request).1
    submissions := a.submissions ++ [(request, (b.submit request).1)] }

/-- The account after closing a bridge. -/
def close (a : Account) (b : Bridge σ) : Account :=
  { a with ledger := a.ledger.closed b.intake.queue.waiting b.close.1 }

/-- The account after a tick of a bridge. There is no report if a panic has got out of it, but the
commands have run. -/
def tick [Machine σ] (a : Account) (b : Bridge σ) : Account :=
  { a with
    ledger := a.ledger.ran b.executions
    ticks := match (Bridge.tick b).1 with
      | .ok report => a.ticks ++ [(b.intake.queue.length, report)]
      | .error _ => a.ticks }

/-- Every submission has exactly one verdict. -/
theorem submitted_add (a : Account) :
    a.submitted .accepted + a.submitted .invalid + a.submitted .full + a.submitted .late =
      a.submissions.length := by
  obtain ⟨l, submissions, ticks⟩ := a
  simp only [submitted]
  induction submissions with
  | nil => rfl
  | cons x rest ih =>
    rw [List.length_cons, ← ih]
    cases hx : Verdict.of x.2 <;> simp [hx] <;> omega

end Account

/-- The bridges that the owner of a new bridge and its producers reach together, as in
`Bridge.Run`, with the account of what has happened. -/
inductive Bridge.Audit [Machine σ] (allowed : (σ → σ) → Prop) (b₀ : Bridge σ) :
    Account → Bridge σ → Prop
  | opened : Audit allowed b₀ .empty b₀
  | submit {a : Account} {b : Bridge σ} (request : Request) : Audit allowed b₀ a b →
      Audit allowed b₀ (a.submit b request) (b.submit request).2
  | useFuture {a : Account} {b : Bridge σ} (id : Nat) (use : FutureUse) : Audit allowed b₀ a b →
      Audit allowed b₀ a (b.useFuture id use)
  | tick {a : Account} {b : Bridge σ} : Audit allowed b₀ a b →
      Audit allowed b₀ (a.tick b) (Bridge.tick b).2
  | close {a : Account} {b : Bridge σ} : Audit allowed b₀ a b →
      Audit allowed b₀ (a.close b) b.close.2
  | outside {a : Account} {b : Bridge σ} (change : σ → σ) : Audit allowed b₀ a b →
      allowed change → Audit allowed b₀ a (b.changeMachine change)

theorem Bridge.Audit.run [Machine σ] {allowed : (σ → σ) → Prop} {b₀ b : Bridge σ} {a : Account}
    (h : Bridge.Audit allowed b₀ a b) : Bridge.Run allowed b₀ a.ledger b := by
  induction h with
  | opened => exact .opened
  | submit request _ ih => exact ih.submit request
  | useFuture id use _ ih => exact ih.useFuture id use
  | tick _ ih => exact ih.tick
  | close _ ih => exact ih.close
  | outside change _ hallowed ih => exact ih.outside change hallowed

/-! ### Submissions -/

theorem Verdict.of_refuse {v : Except Misuse Unit} {e : CommandError} (h : refuse v = .error e) :
    of (.error e) = .invalid := by
  cases v with
  | ok _ => cases h
  | error why =>
    cases h
    rfl

theorem Verdict.of_checkStatic {map : RegionMap} {start : Address} {size : Nat} {e : CommandError}
    (h : map.checkStatic start size = .error e) : of (.error e) = .invalid := by
  cases hrange : checkRange start size with
  | error why =>
    have hstatic : map.checkStatic start size = .error (.invalidArgument why) := by
      simp [RegionMap.checkStatic, RegionMap.checkWrite, hrange]
    rw [h] at hstatic
    cases hstatic
    rfl
  | ok _ =>
    cases hdenied : Id.run (map.firstDenied (fun _ => pure true) (Address.range start size)) with
    | none =>
      have hstatic : map.checkStatic start size = .ok () := by
        simp [RegionMap.checkStatic, RegionMap.checkWrite, hrange, hdenied]
      rw [h] at hstatic
      cases hstatic
    | some a =>
      have hstatic : map.checkStatic start size = .error (.permissionDenied a) := by
        simp [RegionMap.checkStatic, RegionMap.checkWrite, hrange, hdenied]
      rw [h] at hstatic
      cases hstatic
      rfl

/-- Admission does not refuse as a full queue or a closed one does. -/
theorem Limits.verdict_of_check {limits : Limits} {request : Request} {e : CommandError}
    (h : limits.check request = .error e) : Verdict.of (.error e) = .invalid := by
  have hop : ∀ op, limits.checkOp op = .error e → Verdict.of (.error e) = .invalid := by
    intro op hop
    cases op with
    | read start size => exact Verdict.of_refuse hop
    | write start data => exact Verdict.of_checkStatic hop
  have hall : ∀ ops, limits.checkAll ops = .error e → Verdict.of (.error e) = .invalid := by
    intro ops
    induction ops with
    | nil => intro h; cases h
    | cons op rest ih =>
      intro h
      rw [checkAll] at h
      split at h
      · exact ih h
      · next e' he' =>
        cases h
        exact hop op he'
  cases request with
  | readRange start size => exact hop (.read start size) h
  | writeByte a value => exact Verdict.of_checkStatic h
  | writeRange start data => exact hop (.write start data) h
  | batch ops =>
    rw [check, checkBatch] at h
    split at h
    · cases h; rfl
    · split at h
      · cases h; rfl
      · exact hall ops h
  | setOverlay c set clear hold => exact Verdict.of_refuse h
  | clearOverlay c buttons => exact Verdict.of_refuse h
  | setState c buttons hold => exact Verdict.of_refuse h
  | saveState slot => exact Verdict.of_refuse h
  | loadState slot => exact Verdict.of_refuse h
  | _ => cases h

/-- A queue that is closed or full says so, and refuses for no other reason. -/
theorem Queue.verdict_submit {q : Queue} {request : Request} {tick : Tick} {e : CommandError}
    (h : q.submit request tick = .error e) : e = .shutdown ∨ e = .queueFull := by
  rw [submit] at h
  split at h
  · exact .inl (Except.error.inj h).symm
  · split at h
    · exact .inr (Except.error.inj h).symm
    · cases h

/-- A submission is counted by its verdict, and it is invalid if admission says so. -/
theorem Intake.verdict_submit (i : Intake) (request : Request) :
    (i.submit request).2.counters = { i.counters with
      refusedFull := i.counters.refusedFull +
        if Verdict.of (i.submit request).1 = .full then 1 else 0
      refusedInvalid := i.counters.refusedInvalid +
        if Verdict.of (i.submit request).1 = .invalid then 1 else 0 } ∧
    (Verdict.of (i.submit request).1 = .invalid ↔ i.limits.check request ≠ .ok ()) := by
  rw [submit]
  cases hcheck : i.limits.check request with
  | error e => simp [Limits.verdict_of_check hcheck, Counters.countInvalid]
  | ok _ =>
    cases hsubmit : i.queue.submit request i.tick with
    | ok r => simp [Verdict.of]
    | error e =>
      rcases Queue.verdict_submit hsubmit with rfl | rfl
      · simp [Verdict.of]
      · simp [Verdict.of, Counters.countFull]

/-! ### Ticks -/

namespace Bridge

variable [Machine σ]

/-- Running commands counts them and nothing else. -/
theorem counters_served (b : Bridge σ) :
    ∃ executed failed panics, b.served.intake.counters =
      { b.intake.counters with executed := executed, failed := failed, panics := panics } := by
  refine served_of_runCommand (P := fun c => ∃ executed failed panics, c.intake.counters =
    { b.intake.counters with executed := executed, failed := failed, panics := panics }) ?_
    ⟨_, _, _, rfl⟩
  rintro c command ⟨executed, failed, panics, hcounters⟩
  rw [runCommand, Intake.complete, Counters.countOutcome, hcounters]
  split <;> split <;> exact ⟨_, _, _, rfl⟩

/-- Running commands does not move the tick. -/
theorem tick_served (b : Bridge σ) : b.served.session.tick = b.session.tick :=
  served_of_runCommand (P := fun c => c.session.tick = b.session.tick)
    (fun c command hc => (Session.tick_handle command.request c.session).trans hc) rfl

theorem length_runCommands (b : Bridge σ) (commands : List Command) :
    (b.runCommands commands).1.length = commands.length := by
  induction commands generalizing b with
  | nil => rfl
  | cons command rest ih => rw [runCommands, List.length_cons, ih, List.length_cons]

/-- A tick runs as many of the waiting commands as its budget allows. -/
theorem length_outcomes (b : Bridge σ) :
    b.outcomes.length = min b.budget b.intake.queue.length := by
  rw [outcomes, length_runCommands]
  exact List.length_take

omit [Machine σ] in
/-- The other waiting commands are left. -/
theorem length_drained (b : Bridge σ) :
    b.drained.intake.queue.length = b.intake.queue.length - b.budget :=
  List.length_drop

/-- Every command of a tick is reported as executed or as failed. -/
theorem report_closeTick (o : OpenTick) (b : Bridge σ) :
    (closeTick o b).1.executed + (closeTick o b).1.failed = o.outcomes.length ∧
      (closeTick o b).1.deferred = o.deferred ∧ (closeTick o b).1.stepped = o.frame.isSome := by
  obtain ⟨outcomes, deferred, frame⟩ := o
  have hle : (outcomes.filter (·.toBool)).length ≤ outcomes.length := List.length_filter_le _ _
  cases frame with
  | none => exact ⟨Nat.add_sub_cancel' hle, rfl, rfl⟩
  | some frame => exact ⟨Nat.add_sub_cancel' hle, rfl, rfl⟩

end Bridge

/-- The report is true of a tick that leads from the first bridge to the second one. -/
structure TickReport.Describes (r : TickReport) (b b' : Bridge σ) : Prop where
  /-- As many commands were run as the budget allows. -/
  ran_eq : r.executed + r.failed = min b.budget b.intake.queue.length
  /-- All the others were left waiting. -/
  depth_eq : r.executed + r.failed + r.deferred = b.intake.queue.length
  tick_eq : b'.session.tick = if r.stepped then b.session.tick.next else b.session.tick
  counters_eq : ∃ executed failed panics, b'.intake.counters = { b.intake.counters with
    executed := executed, failed := failed, panics := panics
    ticks := b.intake.counters.ticks + 1
    deferred := b.intake.counters.deferred + UInt64.ofNat r.deferred
    stepFailures := b.intake.counters.stepFailures + if r.stepFailed then 1 else 0 }

namespace Bridge

variable [Machine σ]

theorem tick_closeTick (o : OpenTick) (b : Bridge σ) :
    (closeTick o b).2.session.tick =
      if o.frame.isSome then b.session.tick.next else b.session.tick := by
  rw [closeTick]
  cases o.frame <;> rfl

/-- The second half of a tick makes the report true, if the first half has run the commands that
it should and has counted them. -/
theorem describes_closeTick {o : OpenTick} {b b' : Bridge σ} (houtcomes : o.outcomes = b.outcomes)
    (hdeferred : o.deferred = b.drained.intake.queue.length)
    (htick : b'.session.tick = b.session.tick)
    (hcounters : ∃ executed failed panics, b'.intake.counters =
      { b.intake.counters with executed := executed, failed := failed, panics := panics }) :
    (closeTick o b').1.Describes b (closeTick o b').2 := by
  obtain ⟨hran, hreported, hstepped⟩ := report_closeTick o b'
  rw [houtcomes, length_outcomes] at hran
  rw [hdeferred, length_drained] at hreported
  constructor
  · exact hran
  · rw [hran, hreported]
    omega
  · rw [tick_closeTick, hstepped, htick]
  · obtain ⟨executed, failed, panics, hcounters⟩ := hcounters
    exact ⟨executed, failed, panics, by rw [counters_closeTick, hcounters]⟩

/-- A tick is described by its report. If a panic gets out of it, there is none; then nothing but
commands was counted, and the session stays at its tick. -/
theorem tick_describes (b : Bridge σ) :
    (∃ r, (tick b).1 = .ok r ∧ r.Describes b (tick b).2) ∨
      (∃ p, (tick b).1 = .error p ∧ (tick b).2.session.tick = b.session.tick ∧
        ∃ executed failed panics, (tick b).2.intake.counters =
          { b.intake.counters with executed := executed, failed := failed, panics := panics }) := by
  have hserved := b.tick_served
  have hcounters := b.counters_served
  have hnext : ∀ {answer session}, Session.nextFrame.run b.served.session = (answer, session) →
      session.tick = b.session.tick := by
    intro answer session hrun
    have htick := b.served.session.tick_nextFrame
    rw [hrun] at htick
    exact htick.trans hserved
  rcases b.openTick_cases with ⟨-, hopen⟩ | ⟨frame, session, -, hrun, hopen⟩ |
    ⟨p, session, -, hrun, hopen⟩
  · rw [tick, hopen]
    exact .inl ⟨_, rfl, describes_closeTick rfl rfl hserved hcounters⟩
  · rw [tick, hopen]
    exact .inl ⟨_, rfl, describes_closeTick rfl rfl (hnext hrun) hcounters⟩
  · rw [tick, hopen]
    exact .inr ⟨p, rfl, hnext hrun, hcounters⟩

end Bridge

/-! ### Along a run -/

namespace Account

/-- A submission adds one to the submissions with its verdict. -/
theorem submitted_submit (a : Account) (b : Bridge σ) (request : Request) (v : Verdict) :
    (a.submit b request).submitted v =
      a.submitted v + if Verdict.of (b.submit request).1 = v then 1 else 0 := by
  simp [submit, submitted, List.countP_append, List.countP_cons]

/-- A submission adds to the accepted commands if its verdict says so. -/
theorem length_accepted_submit (a : Account) (b : Bridge σ) (request : Request) :
    (a.submit b request).ledger.accepted.length = a.ledger.accepted.length +
      if Verdict.of (b.submit request).1 = .accepted then 1 else 0 := by
  rw [submit]
  cases hanswer : (b.submit request).1 with
  | ok id => simp [Ledger.submitted, Verdict.of]
  | error e => cases e <;> simp [Ledger.submitted, Verdict.of]

/-- The account and the bridge agree, where `limits` and `budget` are those of the bridge. -/
structure Agrees (limits : Limits) (budget : Nat) (a : Account) (b : Bridge σ) : Prop where
  refusedInvalid_eq : b.intake.counters.refusedInvalid = UInt64.ofNat (a.submitted .invalid)
  refusedFull_eq : b.intake.counters.refusedFull = UInt64.ofNat (a.submitted .full)
  accepted_eq : a.submitted .accepted = a.ledger.accepted.length
  /-- Invalid are the submissions that admission refuses. -/
  invalid_iff : ∀ x ∈ a.submissions, Verdict.of x.2 = .invalid ↔ limits.check x.1 ≠ .ok ()
  ticks_eq : b.intake.counters.ticks = UInt64.ofNat a.ticks.length
  deferred_eq : b.intake.counters.deferred = UInt64.ofNat a.deferred
  stepFailures_eq : b.intake.counters.stepFailures = UInt64.ofNat a.stepFailures
  /-- A completed tick has run as many commands as the budget allows and left the others. -/
  reports : ∀ x ∈ a.ticks, x.2.executed + x.2.failed = min budget x.1 ∧
    x.2.executed + x.2.failed + x.2.deferred = x.1
  tick_eq : b.session.tick.toNat = min a.stepped Tick.last

theorem ofNat_add_ite (n : Nat) (p : Prop) [Decidable p] :
    UInt64.ofNat (n + if p then 1 else 0) = UInt64.ofNat n + if p then 1 else 0 := by
  split <;> simp

namespace Agrees

variable {limits : Limits} {budget : Nat} {a : Account} {b : Bridge σ}

theorem submit (h : a.Agrees limits budget b) (hlimits : b.intake.limits = limits)
    (request : Request) : (a.submit b request).Agrees limits budget (b.submit request).2 := by
  obtain ⟨hcounters, hinvalid⟩ := b.intake.verdict_submit request
  have hverdict : Verdict.of (b.intake.submit request).1 = Verdict.of (b.submit request).1 := rfl
  have hintake : (b.submit request).2.intake = (b.intake.submit request).2 := rfl
  rw [hverdict] at hcounters
  constructor
  · rw [hintake, hcounters, submitted_submit, ofNat_add_ite, h.refusedInvalid_eq]
  · rw [hintake, hcounters, submitted_submit, ofNat_add_ite, h.refusedFull_eq]
  · rw [submitted_submit, length_accepted_submit, h.accepted_eq]
  · intro x hx
    rcases List.mem_append.mp hx with hx | hx
    · exact h.invalid_iff x hx
    · rw [List.mem_singleton.mp hx, ← hlimits]
      exact hinvalid
  · rw [hintake, hcounters]
    exact h.ticks_eq
  · rw [hintake, hcounters]
    exact h.deferred_eq
  · rw [hintake, hcounters]
    exact h.stepFailures_eq
  · exact h.reports
  · exact h.tick_eq

variable [Machine σ]

/-- A completed tick adds to the account what its report says. -/
theorem tick_of_ok (h : a.Agrees limits budget b) (hbudget : b.budget = budget) {r : TickReport}
    (hreport : (Bridge.tick b).1 = .ok r) (hr : r.Describes b (Bridge.tick b).2) :
    (a.tick b).Agrees limits budget (Bridge.tick b).2 := by
  obtain ⟨executed, failed, panics, hcounters⟩ := hr.counters_eq
  have hticks : (a.tick b).ticks = a.ticks ++ [(b.intake.queue.length, r)] := by
    rw [Account.tick, hreport]
  have hlast := Tick.toNat_next b.session.tick
  constructor
  · rw [hcounters]
    exact h.refusedInvalid_eq
  · rw [hcounters]
    exact h.refusedFull_eq
  · exact h.accepted_eq
  · exact h.invalid_iff
  · rw [hcounters, hticks, List.length_append, UInt64.ofNat_add, h.ticks_eq]
    rfl
  · rw [hcounters, deferred, hticks, List.foldl_append, List.foldl_cons, List.foldl_nil,
      UInt64.ofNat_add, h.deferred_eq]
    rfl
  · simp only [hcounters, stepFailures, hticks, List.countP_append, List.countP_singleton,
      ofNat_add_ite, h.stepFailures_eq]
  · intro x hx
    rw [hticks] at hx
    rcases List.mem_append.mp hx with hx | hx
    · exact h.reports x hx
    · rw [List.mem_singleton.mp hx, ← hbudget]
      exact ⟨hr.ran_eq, hr.depth_eq⟩
  · simp only [hr.tick_eq, stepped, hticks, List.countP_append, List.countP_singleton]
    have htick := h.tick_eq
    rw [stepped] at htick
    split <;> omega

/-- A tick that a panic gets out of is not accounted for. -/
theorem tick_of_error (h : a.Agrees limits budget b) {p : Panic}
    (hpanic : (Bridge.tick b).1 = .error p)
    (htick : (Bridge.tick b).2.session.tick = b.session.tick)
    (hcounters : ∃ executed failed panics, (Bridge.tick b).2.intake.counters =
      { b.intake.counters with executed := executed, failed := failed, panics := panics }) :
    (a.tick b).Agrees limits budget (Bridge.tick b).2 := by
  obtain ⟨executed, failed, panics, hcounters⟩ := hcounters
  have haccount : a.tick b = { a with ledger := a.ledger.ran b.executions } := by
    rw [Account.tick, hpanic]
  rw [haccount]
  constructor
  · rw [hcounters]
    exact h.refusedInvalid_eq
  · rw [hcounters]
    exact h.refusedFull_eq
  · exact h.accepted_eq
  · exact h.invalid_iff
  · rw [hcounters]
    exact h.ticks_eq
  · rw [hcounters]
    exact h.deferred_eq
  · rw [hcounters]
    exact h.stepFailures_eq
  · exact h.reports
  · rw [htick]
    exact h.tick_eq

end Agrees

end Account

namespace Bridge

variable [Machine σ] {allowed : (σ → σ) → Prop} {machine : σ} {settings : Settings}
  {b₀ b : Bridge σ} {a : Account}

/-- Along every run the account and the bridge agree. -/
theorem Audit.agrees (hstart : start machine settings = .ok b₀) (h : Audit allowed b₀ a b) :
    a.Agrees b₀.intake.limits b₀.budget b := by
  induction h with
  | opened =>
    obtain ⟨regions, -, -, rfl⟩ := start_eq_ok.mp hstart
    exact ⟨rfl, rfl, rfl, by simp [Account.empty], rfl, rfl, rfl, by simp [Account.empty], rfl⟩
  | submit request hb ih => exact ih.submit hb.run.reachable.limits_eq request
  | useFuture id use _ ih => exact { ih with }
  | @tick a b hb ih =>
    rcases b.tick_describes with ⟨r, hreport, hr⟩ | ⟨p, hpanic, htick, hcounters⟩
    · exact ih.tick_of_ok hb.run.reachable.budget_eq hreport hr
    · exact ih.tick_of_error hpanic htick hcounters
  | close _ ih => exact { ih with }
  | outside change _ _ ih => exact { ih with }

/-- The accepted commands have succeeded, have failed, wait, or were reported as cancelled. -/
theorem Audit.accepted_add_up (hstart : start machine settings = .ok b₀)
    (h : Audit allowed b₀ a b) :
    a.submitted .accepted = a.ledger.executed.countP (·.succeeded) +
      a.ledger.executed.countP (!·.succeeded) + b.intake.queue.length +
      a.ledger.totalReported := by
  have hbalanced := h.run.reachable.balanced hstart
  have hlength := congrArg List.length hbalanced.accepted_eq
  simp only [Place.inHand, List.append_nil, List.length_append, List.length_map] at hlength
  have hexecuted : a.ledger.executed.length = a.ledger.executed.countP (·.succeeded) +
      a.ledger.executed.countP (!·.succeeded) := by
    rw [List.length_eq_countP_add_countP (·.succeeded)]
    simp only [Bool.decide_eq_false, Bool.not_eq_true]
  have hcancelled : a.ledger.totalReported = a.ledger.cancelled.length := hbalanced.totalReported_eq
  have hwaiting : b.intake.queue.length = b.intake.queue.waiting.length := rfl
  rw [(h.agrees hstart).accepted_eq, hlength, hcancelled, hexecuted, hwaiting]
  omega

/-- Between any two operations the counters of a bridge say what has happened, up to wrapping
around, whatever has failed, panicked or was refused.

* Every submission was accepted, or refused by admission, by a full queue or by a closed one, and
  the first two kinds of refusals are counted.
* The accepted commands have succeeded, have failed, wait, or were cancelled; the commands that
  succeeded and those that failed are counted, and among the latter those that panicked.
* Completed ticks, their steps that failed and the commands that they left waiting are counted.
  Such a tick has run the commands that waited, as far as the budget went.
* The published tick is that of the session, which is the number of steps up to the last tick. -/
theorem Audit.counters_conserved (hstart : start machine settings = .ok b₀)
    (h : Audit allowed b₀ a b) :
    let c := b.intake.counters
    let l := a.ledger
    (a.submissions.length =
        a.submitted .accepted + a.submitted .invalid + a.submitted .full + a.submitted .late ∧
      (∀ x ∈ a.submissions,
        Verdict.of x.2 = .invalid ↔ b₀.intake.limits.check x.1 ≠ .ok ()) ∧
      c.refusedInvalid = UInt64.ofNat (a.submitted .invalid) ∧
      c.refusedFull = UInt64.ofNat (a.submitted .full)) ∧
    (UInt64.ofNat (a.submitted .accepted) = c.executed + c.failed +
        UInt64.ofNat b.intake.queue.length + UInt64.ofNat l.totalReported ∧
      c.executed = UInt64.ofNat (l.executed.countP (·.succeeded)) ∧
      c.failed = UInt64.ofNat (l.executed.countP (!·.succeeded)) ∧
      c.panics = UInt64.ofNat (l.executed.countP (·.panicked)) ∧
      l.executed.countP (·.panicked) ≤ l.executed.countP (!·.succeeded)) ∧
    (c.ticks = UInt64.ofNat a.ticks.length ∧
      c.deferred = UInt64.ofNat a.deferred ∧
      c.stepFailures = UInt64.ofNat a.stepFailures ∧
      ∀ x ∈ a.ticks, x.2.executed + x.2.failed + x.2.deferred = x.1 ∧
        x.2.executed + x.2.failed = min settings.commandsPerTick.toNat x.1) ∧
    (b.intake.tick = b.session.tick ∧ b.session.tick.toNat = min a.stepped Tick.last) := by
  have hagrees := h.agrees hstart
  have hcounted := h.run.reachable.counted hstart
  have hbudget : b₀.budget = settings.commandsPerTick.toNat := by
    obtain ⟨regions, -, -, rfl⟩ := start_eq_ok.mp hstart
    rfl
  refine ⟨⟨a.submitted_add.symm, hagrees.invalid_iff, hagrees.refusedInvalid_eq,
    hagrees.refusedFull_eq⟩, ⟨?_, hcounted.executed_eq, hcounted.failed_eq, hcounted.panics_eq, ?_⟩,
    ⟨hagrees.ticks_eq, hagrees.deferred_eq, hagrees.stepFailures_eq, ?_⟩,
    h.run.reachable.published hstart, hagrees.tick_eq⟩
  · rw [h.accepted_add_up hstart, UInt64.ofNat_add, UInt64.ofNat_add, UInt64.ofNat_add,
      ← hcounted.executed_eq, ← hcounted.failed_eq]
  · exact List.countP_mono_left fun x _ hx => Execution.not_succeeded_of_panicked hx
  · intro x hx
    obtain ⟨hran, hdepth⟩ := hagrees.reports x hx
    rw [hbudget] at hran
    exact ⟨hdepth, hran⟩

/-- Of five submissions to a queue with room for two commands, one is refused by admission, one by
the full queue and one by the closed queue. A tick with a budget of one command pauses the session;
the other command is cancelled. -/
theorem counters_of_paused_and_closed :
    let opened := sized (Scripted.fresh true false Faults.none) 2 1
    let filled := ((((opened.submit (.readRange (Address.ofNat 0) 0)).2.submit .pause).2.submit
      .status).2.submit .resume).2
    let b := ((tick filled).2.close.2.submit .status).2
    b.intake.counters.refusedInvalid = 1 ∧ b.intake.counters.refusedFull = 1 ∧
      2 = b.intake.counters.executed + b.intake.counters.failed + 0 + 1 ∧
      b.intake.counters.ticks = 1 ∧ b.intake.counters.deferred = 1 ∧ b.session.tick.toNat = 0 := by
  have haudit : Audit (fun _ => True) (sized (Scripted.fresh true false Faults.none) 2 1) _ _ :=
    ((((((Audit.opened.submit (.readRange (Address.ofNat 0) 0)).submit .pause).submit
      .status).submit .resume).tick).close).submit .status
  obtain ⟨⟨-, -, hinvalid, hfull⟩, ⟨haccepted, -⟩, ⟨hticks, hdeferred, -⟩, -, htick⟩ :=
    haudit.counters_conserved (start_sized _ (by decide) (by decide))
  exact ⟨hinvalid, hfull, haccepted, hticks, hdeferred, htick⟩

end Bridge

end CommandBridge
