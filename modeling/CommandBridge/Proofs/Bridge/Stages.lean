import CommandBridge.Bridge.Clocked
import CommandBridge.Proofs.Queue.Deliveries
import CommandBridge.Proofs.Session.Invariants

/-!
# Bridges between two moves

Whoever ticks a bridge and whoever submits to it need not be the same thread. The definitions of
`Bridge` say what a whole tick does; this module cuts a tick into the moves between which somebody
else may act, so that statements about a bridge hold for every interleaving:

* `Stage` is a bridge together with the place at which the ticking side is (`Place`) and an
  account of what has become of the commands so far (`Ledger`);
* `Stage.proceed` is the next move of the ticking side: it drains a batch, runs one command of it,
  builds the frame, or finishes the step;
* `Reachable` is every stage that moves of the ticking side, of producers, of the holders of
  futures and of the owner lead to, in any order. Only closing has to wait until no tick is under
  way: the owner of a bridge with a thread of its own joins the thread first, and the owner of
  one without is ticking it.

A bridge that its owner ticks makes whole ticks. `Bridge.Run` says which bridges it reaches, by
the functions of `Bridge` alone, and `Bridge.Run.reachable` that each of them is a stage: a tick
is a sequence of `proceed` moves (`Stage.KeptInside.tick`).

Properties are lifted from the moves to every stage once for all. The session changes in four of the
moves only, and a property that survives these, a `SessionInvariant`, holds of every stage
(`Reachable.session_invariant`). The same goes for a property of the whole bridge that survives
everything that is done to it, a `BridgeInvariant` (`Reachable.bridge_invariant`).
-/

namespace CommandBridge

variable {σ : Type}

/-! ### Ledgers -/

/-- What has become of the commands of a bridge. -/
structure Ledger where
  /-- The commands that the queue has accepted, in order. -/
  accepted : List Command
  /-- The commands that were run, in order, with their outcomes. -/
  executed : List Execution
  /-- The commands that were cancelled, in order. -/
  cancelled : List Command
  /-- How many cancelled commands each closing has reported, in order. -/
  reported : List Nat

namespace Ledger

def empty : Ledger := ⟨[], [], [], []⟩

/-- How many cancelled commands the closings have reported together. -/
def totalReported (l : Ledger) : Nat := l.reported.foldl (· + ·) 0

/-- The ledger after a submission with the given answer. -/
def submitted (l : Ledger) (request : Request) (tick : Tick) : Outcome Nat → Ledger
  | .ok id => { l with accepted := l.accepted ++ [⟨id, request, tick⟩] }
  | .error _ => l

/-- The ledger after running commands. -/
def ran (l : Ledger) (executions : List Execution) : Ledger :=
  { l with executed := l.executed ++ executions }

/-- The ledger after a closing that has cancelled commands. -/
def closed (l : Ledger) (commands : List Command) (count : Nat) : Ledger :=
  { l with cancelled := l.cancelled ++ commands, reported := l.reported ++ [count] }

@[simp] theorem ran_nil (l : Ledger) : l.ran [] = l := by simp [ran]

theorem totalReported_closed (l : Ledger) (commands : List Command) (count : Nat) :
    (l.closed commands count).totalReported = l.totalReported + count := by
  rw [totalReported, closed, List.foldl_append]
  rfl

theorem ran_ran (l : Ledger) (xs ys : List Execution) : (l.ran xs).ran ys = l.ran (xs ++ ys) := by
  simp [ran]

end Ledger

/-! ### What a tick runs -/

namespace Bridge

/-- The commands that the next tick runs. -/
def batch (b : Bridge σ) : List Command := (b.intake.queue.drain b.budget).1

/-- The bridge after the next tick's commands were taken out of the queue. -/
def drained (b : Bridge σ) : Bridge σ :=
  { b with intake := { b.intake with queue := (b.intake.queue.drain b.budget).2 } }

variable [Machine σ]

/-- The bridge after the next tick's commands were run. -/
def served (b : Bridge σ) : Bridge σ := (b.drained.runCommands b.batch).2

/-- The outcomes of the next tick's commands. -/
def outcomes (b : Bridge σ) : List (Outcome Reply) := (b.drained.runCommands b.batch).1

/-- The commands that the next tick runs, with their outcomes. -/
def executions (b : Bridge σ) : List Execution := b.batch.zipWith Execution.mk b.outcomes

/-- What running one command keeps, running all commands of a tick keeps. -/
theorem served_of_runCommand {P : Bridge σ → Prop}
    (hP : ∀ b command, P b → P (b.runCommand command).2) {b : Bridge σ} (h : P b.drained) :
    P b.served := by
  have hall : ∀ (commands : List Command) (c : Bridge σ), P c → P (c.runCommands commands).2 := by
    intro commands
    induction commands with
    | nil => exact fun _ hc => hc
    | cons command rest ih => exact fun c hc => ih _ (hP c command hc)
  exact hall b.batch b.drained h

/-- The three ways in which the first half of a tick ends: in a paused session, with a frame for
the machine, or with a panic. The commands have been run in all of them. -/
theorem openTick_cases (b : Bridge σ) :
    (b.served.session.paused = true ∧
      openTick b = (.ok ⟨b.outcomes, b.drained.intake.queue.length, none⟩, b.served)) ∨
    (∃ frame session, b.served.session.paused = false ∧
      Session.nextFrame.run b.served.session = (.ok frame, session) ∧
      openTick b = (.ok ⟨b.outcomes, b.drained.intake.queue.length, some frame⟩,
        { b.served with session := session })) ∨
    (∃ p session, b.served.session.paused = false ∧
      Session.nextFrame.run b.served.session = (.error p, session) ∧
      openTick b = (.error p, { b.served with session := session })) := by
  have hopen : openTick b =
      if b.served.session.paused then
        (.ok ⟨b.outcomes, b.drained.intake.queue.length, none⟩, b.served)
      else
        ((Session.nextFrame.run b.served.session).1.map fun frame =>
            ⟨b.outcomes, b.drained.intake.queue.length, some frame⟩,
          { b.served with session := (Session.nextFrame.run b.served.session).2 }) := rfl
  cases hpaused : b.served.session.paused with
  | true => exact .inl ⟨rfl, by rw [hopen, hpaused, if_pos rfl]⟩
  | false =>
    rcases hnext : Session.nextFrame.run b.served.session with ⟨p | frame, session⟩
    · refine .inr (.inr ⟨p, session, rfl, rfl, ?_⟩)
      rw [hopen, hpaused, hnext]
      rfl
    · refine .inr (.inl ⟨frame, session, rfl, rfl, ?_⟩)
      rw [hopen, hpaused, hnext]
      rfl

end Bridge

/-! ### Stages -/

/-- Where the ticking side of a bridge is. -/
inductive Place
  /-- Between two ticks. -/
  | idle
  /-- Running the commands of a tick. -/
  | running (inHand : List Command) (outcomes : List (Outcome Reply)) (deferred : Nat)
  /-- About to step the machine. -/
  | stepping (tick : OpenTick)

/-- The commands that were taken out of the queue and have not been run yet. -/
def Place.inHand : Place → List Command
  | .running commands _ _ => commands
  | _ => []

/-- A bridge, the place at which its ticking side is, and what has happened so far. -/
structure Stage (σ : Type) where
  bridge : Bridge σ
  place : Place
  ledger : Ledger

/-- The bridge after the future of a command was used. -/
def Bridge.useFuture (b : Bridge σ) (id : Nat) (use : FutureUse) : Bridge σ :=
  { b with intake := b.intake.modifyTicket id use.apply }

/-- The bridge after somebody has changed its machine. -/
def Bridge.changeMachine (b : Bridge σ) (change : σ → σ) : Bridge σ :=
  { b with session := { b.session with machine := change b.session.machine } }

namespace Stage

/-- A new bridge. -/
def opened (b : Bridge σ) : Stage σ := ⟨b, .idle, .empty⟩

/-- A producer submits a request. -/
def submit (s : Stage σ) (request : Request) : Stage σ :=
  { s with
    bridge := (s.bridge.submit request).2
    ledger := s.ledger.submitted request s.bridge.intake.tick (s.bridge.submit request).1 }

/-- The owner closes the bridge. -/
def close (s : Stage σ) : Stage σ :=
  { s with
    bridge := s.bridge.close.2
    ledger := s.ledger.closed s.bridge.intake.queue.waiting s.bridge.close.1 }

@[simp] theorem executed_submit (s : Stage σ) (request : Request) :
    (s.submit request).ledger.executed = s.ledger.executed := by
  simp only [submit, Ledger.submitted]
  split <;> rfl

variable [Machine σ]

/-- The next move of the ticking side. -/
def proceed (s : Stage σ) : Stage σ :=
  match s.place with
  | .idle =>
    { s with
      bridge := s.bridge.drained
      place := .running s.bridge.batch [] s.bridge.drained.intake.queue.length }
  | .running (command :: rest) outcomes deferred =>
    let r := s.bridge.runCommand command
    ⟨r.2, .running rest (outcomes ++ [r.1]) deferred, s.ledger.ran [⟨command, r.1⟩]⟩
  | .running [] outcomes deferred =>
    if s.bridge.session.paused then
      { s with bridge := (Bridge.closeTick ⟨outcomes, deferred, none⟩ s.bridge).2, place := .idle }
    else
      let f := Session.nextFrame.run s.bridge.session
      { s with
        bridge := { s.bridge with session := f.2 }
        place := match f.1 with
          | .ok frame => .stepping ⟨outcomes, deferred, some frame⟩
          | .error _ => .idle }
  | .stepping o => { s with bridge := (Bridge.closeTick o s.bridge).2, place := .idle }

end Stage

/-- The stages that a new bridge reaches, when the machine may be changed from outside in the
allowed ways. -/
inductive Reachable [Machine σ] (allowed : (σ → σ) → Prop) (b : Bridge σ) : Stage σ → Prop
  | opened : Reachable allowed b (.opened b)
  | submit {s : Stage σ} (request : Request) :
      Reachable allowed b s → Reachable allowed b (s.submit request)
  | useFuture {s : Stage σ} (id : Nat) (use : FutureUse) :
      Reachable allowed b s → Reachable allowed b { s with bridge := s.bridge.useFuture id use }
  | proceed {s : Stage σ} : Reachable allowed b s → Reachable allowed b s.proceed
  | close {s : Stage σ} :
      Reachable allowed b s → s.place = .idle → Reachable allowed b s.close
  | unattended {s : Stage σ} :
      Reachable allowed b s → Reachable allowed b { s with bridge := Clocked.unattended s.bridge }
  | outside {s : Stage σ} (change : σ → σ) :
      Reachable allowed b s → allowed change →
      Reachable allowed b { s with bridge := s.bridge.changeMachine change }

/-! ### Properties of the session -/

section

variable [Machine σ] {allowed : (σ → σ) → Prop} {P : List Execution → Session σ → Prop}

/-- The second half of a tick changes the session only by stepping it. -/
theorem SessionInvariant.closeTick (hP : SessionInvariant allowed P) {history : List Execution}
    {b : Bridge σ} (h : P history b.session) (o : OpenTick) :
    P history (Bridge.closeTick o b).2.session := by
  rw [Bridge.closeTick]
  cases o.frame with
  | none => exact h
  | some frame => exact hP.step history b.session frame h

/-- One move of the ticking side. -/
theorem SessionInvariant.proceed (hP : SessionInvariant allowed P) {s : Stage σ}
    (h : P s.ledger.executed s.bridge.session) :
    P s.proceed.ledger.executed s.proceed.bridge.session := by
  obtain ⟨b, place, l⟩ := s
  match place with
  | .idle => exact h
  | .running (command :: rest) outcomes deferred => exact hP.handle l.executed b.session command h
  | .running [] outcomes deferred =>
    -- A paused tick closes at once. Otherwise building the frame asks the machine for its input.
    simp only [Stage.proceed]
    split
    · exact hP.closeTick h _
    · exact hP.nextFrame l.executed b.session h
  | .stepping o => exact hP.closeTick h o

/-- A property that each change of the session preserves holds of every stage. -/
theorem Reachable.session_invariant (hP : SessionInvariant allowed P) {b : Bridge σ} {s : Stage σ}
    (h : Reachable allowed b s) (hopened : P [] b.session) :
    P s.ledger.executed s.bridge.session := by
  induction h with
  | opened => exact hopened
  | submit request _ ih =>
    rw [Stage.executed_submit]
    exact ih
  | useFuture id use _ ih => exact ih
  | proceed _ ih => exact hP.proceed ih
  | close _ _ ih => exact ih
  | unattended _ ih => exact ih
  | outside change _ hallowed ih => exact hP.outside _ _ change ih hallowed

end

/-! ### Properties of the bridge -/

/-- A property of bridges that survives everything that is done to one. -/
structure BridgeInvariant [Machine σ] (P : Bridge σ → Prop) : Prop where
  submit (b : Bridge σ) (request : Request) : P b → P (b.submit request).2
  useFuture (b : Bridge σ) (id : Nat) (use : FutureUse) : P b → P (b.useFuture id use)
  drained (b : Bridge σ) : P b → P b.drained
  runCommand (b : Bridge σ) (command : Command) : P b → P (b.runCommand command).2
  nextFrame (b : Bridge σ) :
    P b → P { b with session := (Session.nextFrame.run b.session).2 }
  closeTick (b : Bridge σ) (o : OpenTick) : P b → P (Bridge.closeTick o b).2
  close (b : Bridge σ) : P b → P b.close.2
  unattended (b : Bridge σ) : P b → P (Clocked.unattended b)
  changeMachine (b : Bridge σ) (change : σ → σ) : P b → P (b.changeMachine change)

section

variable [Machine σ] {allowed : (σ → σ) → Prop} {P : Bridge σ → Prop}

/-- One move of the ticking side. -/
theorem BridgeInvariant.proceed (hP : BridgeInvariant P) {s : Stage σ} (h : P s.bridge) :
    P s.proceed.bridge := by
  obtain ⟨b, place, l⟩ := s
  match place with
  | .idle => exact hP.drained b h
  | .running (command :: rest) outcomes deferred => exact hP.runCommand b command h
  | .running [] outcomes deferred =>
    simp only [Stage.proceed]
    split
    · exact hP.closeTick b _ h
    · exact hP.nextFrame b h
  | .stepping o => exact hP.closeTick b o h

/-- A property that survives everything that is done to a bridge holds in every stage. -/
theorem Reachable.bridge_invariant (hP : BridgeInvariant P) {b : Bridge σ} {s : Stage σ}
    (h : Reachable allowed b s) (hopened : P b) : P s.bridge := by
  induction h with
  | opened => exact hopened
  | submit request _ ih => exact hP.submit _ request ih
  | useFuture id use _ ih => exact hP.useFuture _ id use ih
  | proceed _ ih => exact hP.proceed ih
  | close _ _ ih => exact hP.close _ ih
  | unattended _ ih => exact hP.unattended _ ih
  | outside change _ _ ih => exact hP.changeMachine _ change ih

end

/-! ### Whole ticks -/

section

variable [Machine σ]

/-- The property of stages survives every move inside a tick. -/
def Stage.KeptInside (R : Stage σ → Prop) : Prop := ∀ s, s.place ≠ .idle → R s → R s.proceed

namespace Stage.KeptInside

variable {R : Stage σ → Prop} {b : Bridge σ} {l : Ledger}

/-- All commands in hand are run one after the other. -/
theorem runCommands (hR : KeptInside R) {commands : List Command}
    {outcomes : List (Outcome Reply)} {deferred : Nat}
    (h : R ⟨b, .running commands outcomes deferred, l⟩) :
    R ⟨(b.runCommands commands).2, .running [] (outcomes ++ (b.runCommands commands).1) deferred,
      l.ran (commands.zipWith Execution.mk (b.runCommands commands).1)⟩ := by
  induction commands generalizing b outcomes l with
  | nil => simpa [Bridge.runCommands] using h
  | cons command rest ih =>
    -- One move runs the first command and adds its execution to the ledger.
    have hrest := ih (hR _ Place.noConfusion h)
    rw [Ledger.ran_ran, List.append_assoc] at hrest
    exact hrest

/-- The commands of a tick have been run. -/
theorem served (hR : KeptInside R) (h : R (proceed ⟨b, .idle, l⟩)) :
    R ⟨b.served, .running [] b.outcomes b.drained.intake.queue.length, l.ran b.executions⟩ :=
  hR.runCommands h

/-- A tick with a frame is about to step the machine. -/
theorem openTick_of_frame (hR : KeptInside R) (h : R (proceed ⟨b, .idle, l⟩)) {o : OpenTick}
    {frame : InputFrame} {b' : Bridge σ} (hopen : Bridge.openTick b = (.ok o, b'))
    (hframe : o.frame = some frame) : R ⟨b', .stepping o, l.ran b.executions⟩ := by
  have hnext := hR _ Place.noConfusion (hR.served h)
  rcases b.openTick_cases with ⟨-, hcase⟩ | ⟨f, session, hpaused, hsession, hcase⟩ |
    ⟨p, session, -, -, hcase⟩
  · rw [hcase] at hopen
    cases hopen
    cases hframe
  · rw [hcase] at hopen
    cases hopen
    simpa only [Stage.proceed, hpaused, Bool.false_eq_true, ↓reduceIte, hsession] using hnext
  · rw [hcase] at hopen
    cases hopen

/-- A whole tick, whatever comes of it. -/
theorem tick (hR : KeptInside R) (h : R (proceed ⟨b, .idle, l⟩)) :
    R ⟨(Bridge.tick b).2, .idle, l.ran b.executions⟩ := by
  -- From here a paused tick and a panicking one have one move to go, and a step has two.
  have hnext := hR _ Place.noConfusion (hR.served h)
  rcases b.openTick_cases with ⟨hpaused, hcase⟩ | ⟨frame, session, hpaused, hsession, hcase⟩ |
    ⟨p, session, hpaused, hsession, hcase⟩
  · rw [Bridge.tick, hcase]
    simpa only [Stage.proceed, hpaused, ↓reduceIte] using hnext
  · rw [Bridge.tick, hcase]
    exact hR _ Place.noConfusion (hR.openTick_of_frame h hcase rfl)
  · rw [Bridge.tick, hcase]
    simpa only [Stage.proceed, hpaused, Bool.false_eq_true, ↓reduceIte, hsession] using hnext

end Stage.KeptInside

end

namespace Reachable

variable [Machine σ] {allowed : (σ → σ) → Prop} {b₀ b : Bridge σ} {l : Ledger}

theorem keptInside : Stage.KeptInside (Reachable allowed b₀) := fun _ _ h => h.proceed

/-- The commands of a tick have been run. -/
theorem served (h : Reachable allowed b₀ ⟨b, .idle, l⟩) :
    Reachable allowed b₀
      ⟨b.served, .running [] b.outcomes b.drained.intake.queue.length, l.ran b.executions⟩ :=
  keptInside.served h.proceed

/-- A tick with a frame is about to step the machine. -/
theorem openTick_of_frame (h : Reachable allowed b₀ ⟨b, .idle, l⟩) {o : OpenTick}
    {frame : InputFrame} {b' : Bridge σ} (hopen : Bridge.openTick b = (.ok o, b'))
    (hframe : o.frame = some frame) :
    Reachable allowed b₀ ⟨b', .stepping o, l.ran b.executions⟩ :=
  keptInside.openTick_of_frame h.proceed hopen hframe

/-- A whole tick, whatever comes of it. -/
theorem tick (h : Reachable allowed b₀ ⟨b, .idle, l⟩) :
    Reachable allowed b₀ ⟨(Bridge.tick b).2, .idle, l.ran b.executions⟩ :=
  keptInside.tick h.proceed

end Reachable

/-! ### Bridges that are ticked by their owners -/

/-- The bridges that the owner of a new bridge and its producers reach together, with the ledger:
the owner ticks, closes and changes the machine, producers submit and use their futures. -/
inductive Bridge.Run [Machine σ] (allowed : (σ → σ) → Prop) (b₀ : Bridge σ) :
    Ledger → Bridge σ → Prop
  | opened : Run allowed b₀ .empty b₀
  | submit {l : Ledger} {b : Bridge σ} (request : Request) : Run allowed b₀ l b →
      Run allowed b₀ (l.submitted request b.intake.tick (b.submit request).1) (b.submit request).2
  | useFuture {l : Ledger} {b : Bridge σ} (id : Nat) (use : FutureUse) : Run allowed b₀ l b →
      Run allowed b₀ l (b.useFuture id use)
  | tick {l : Ledger} {b : Bridge σ} : Run allowed b₀ l b →
      Run allowed b₀ (l.ran b.executions) (Bridge.tick b).2
  | close {l : Ledger} {b : Bridge σ} : Run allowed b₀ l b →
      Run allowed b₀ (l.closed b.intake.queue.waiting b.close.1) b.close.2
  | outside {l : Ledger} {b : Bridge σ} (change : σ → σ) : Run allowed b₀ l b → allowed change →
      Run allowed b₀ l (b.changeMachine change)

/-- A bridge that is ticked by its owner is a stage between two ticks. -/
theorem Bridge.Run.reachable [Machine σ] {allowed : (σ → σ) → Prop} {b₀ b : Bridge σ}
    {l : Ledger} (h : Bridge.Run allowed b₀ l b) : Reachable allowed b₀ ⟨b, .idle, l⟩ := by
  induction h with
  | opened => exact .opened
  | submit request _ ih => exact ih.submit request
  | useFuture id use _ ih => exact ih.useFuture id use
  | tick _ ih => exact ih.tick
  | close _ ih => exact ih.close rfl
  | outside change _ hallowed ih => exact ih.outside change hallowed

end CommandBridge
