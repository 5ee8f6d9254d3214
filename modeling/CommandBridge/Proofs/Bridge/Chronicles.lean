import CommandBridge.Proofs.Bridge.Timelines
import CommandBridge.Proofs.Session.Inspection

/-!
# Reads go unnoticed

A `Chronicle` is a run of a bridge around a scripted machine with its history: the commands of each
tick, paused and panicking ticks included, and the changes of the machine from outside between the
ticks. Every stage that is reached without such changes has a chronicle
(`Reachable.exists_chronicle`), and so has every run of a bridge that its owner ticks
(`Bridge.Run.exists_chronicle`). The history has the executions of the ledger
(`Chronicle.executed_eq`).

The history is all there is to know: replaying it gives the session and all outcomes
(`Chronicle.plays`, `Chronicle.outcomes_eq`). In a replay the requests that only ask can be left out
(`Session.play_others`). So two bridges whose ticks have run the same commands, apart from those
that only ask, have the same sessions and have given the other commands the same outcomes
(`Bridge.reads_go_unnoticed`), whatever their queues and budgets are.
-/

namespace CommandBridge

open CommandBridge.Action

/-! ### Histories -/

/-- What has happened to a session: a tick with what it has run, in order, or a change of the
machine from outside. -/
inductive Entry (α : Type)
  | tick (xs : List α)
  | change (f : Scripted → Scripted)

def Entry.map {α β : Type} (f : List α → List β) : Entry α → Entry β
  | .tick xs => .tick (f xs)
  | .change g => .change g

/-- What has happened to a session, from the newest entry to the oldest one. -/
abbrev History := List (Entry Execution)

namespace History

def requests (h : History) : List (Entry Request) :=
  h.map (Entry.map (List.map (·.command.request)))

def outcomes (h : History) : List (Entry (Outcome Reply)) :=
  h.map (Entry.map (List.map (·.outcome)))

/-- The history without the requests that only ask. -/
def others (h : History) : History := h.map (Entry.map Session.others)

/-- All executions, from the oldest one to the newest one. -/
def executions : History → List Execution
  | [] => []
  | .tick xs :: past => executions past ++ xs
  | .change _ :: past => executions past

theorem change_mem_tick {f : Scripted → Scripted} {xs : List Execution} {h : History} :
    Entry.change f ∈ Entry.tick xs :: h ↔ Entry.change f ∈ h := by
  simp

end History

/-! ### Replaying histories -/

namespace Session

/-- What the end of a tick does, after its commands: it steps the machine, unless the session is
paused or the next frame cannot be built. -/
def endTick (s : Session Scripted) : Session Scripted := if s.paused then s else advance s

/-- What a history makes of a session. -/
def play : List (Entry Request) → Session Scripted → Session Scripted
  | [], s => s
  | .tick requests :: past, s => endTick (runAll requests (play past s)).2
  | .change f :: past, s => { play past s with machine := f (play past s).machine }

/-- The outcomes that the requests of a history have. -/
def answers : List (Entry Request) → Session Scripted → List (Entry (Outcome Reply))
  | [], _ => []
  | .tick requests :: past, s => .tick (runAll requests (play past s)).1 :: answers past s
  | .change f :: past, s => .change f :: answers past s

theorem alike_endTick {s t : Session Scripted} (h : Alike Scripted.SameButReads s t) :
    Alike Scripted.SameButReads (endTick s) (endTick t) := by
  rw [endTick, endTick, h.paused_eq]
  split
  · exact h
  · exact alike_advance h

theorem quiet_endTick {s : Session Scripted} (h : s.machine.Quiet) : (endTick s).machine.Quiet := by
  rw [endTick]
  split
  · exact h
  · exact quiet_advance h

end Session

/-- A change from outside that does not inspect or read the machine and does not look at how often
it was read. -/
structure Scripted.Unobtrusive (change : Scripted → Scripted) : Prop where
  quiet : ∀ m, m.Quiet → (change m).Quiet
  blind : ∀ m n, SameButReads m n → SameButReads (change m) (change n)

theorem Scripted.unobtrusive_setRaw (c : Channel) (buttons : Buttons) :
    Unobtrusive (·.setRaw c buttons) where
  quiet _ h := ⟨h.inspection_eq, h.uninspectedReads_eq⟩
  blind m n h := by
    obtain ⟨reads, rfl⟩ := h.exists_eq
    rfl

namespace Session

/-- The replay of a history without the requests that only ask. -/
theorem play_others {h : History} {start : Session Scripted} (hstart : start.machine.Quiet)
    (hchanges : ∀ f, .change f ∈ h → Scripted.Unobtrusive f)
    (houtcomes : h.outcomes = answers h.requests start) :
    (play h.requests start).machine.Quiet ∧
      Alike Scripted.SameButReads (play h.requests start) (play h.others.requests start) ∧
      h.others.outcomes = answers h.others.requests start := by
  induction h with
  | nil => exact ⟨hstart, sameButReads_iff.mp rfl, rfl⟩
  | cons entry past ih =>
    have hchanges' : ∀ f, .change f ∈ past → Scripted.Unobtrusive f :=
      fun f hf => hchanges f (List.mem_cons_of_mem _ hf)
    cases entry with
    | tick xs =>
      have hcons : Entry.tick (xs.map (·.outcome)) :: History.outcomes past =
          .tick (runAll (xs.map (·.command.request)) (play (History.requests past) start)).1 ::
            answers (History.requests past) start := houtcomes
      obtain ⟨hentry, hpast⟩ := List.cons.inj hcons
      obtain ⟨hquiet, halike, heq⟩ := ih hchanges' hpast
      obtain ⟨hquiet', halike', heq'⟩ := runAll_others hquiet halike (Entry.tick.inj hentry)
      exact ⟨quiet_endTick hquiet', alike_endTick halike',
        congr (congrArg (fun ys => List.cons (Entry.tick ys)) heq') heq⟩
    | change f =>
      have hcons : Entry.change f :: History.outcomes past =
          .change f :: answers (History.requests past) start := houtcomes
      obtain ⟨hquiet, halike, heq⟩ := ih hchanges' (List.cons.inj hcons).2
      obtain ⟨hmachine, hoverlays, htick, hpaused, hregions, hrate⟩ := halike
      have hf := hchanges f List.mem_cons_self
      exact ⟨hf.quiet _ hquiet,
        ⟨hf.blind _ _ hmachine, hoverlays, htick, hpaused, hregions, hrate⟩,
        congrArg (List.cons (Entry.change f)) heq⟩

end Session

/-! ### Chronicles -/

/-- The stages that a new bridge reaches when its machine is changed from outside only between two
ticks, with a history. -/
inductive Chronicle (allowed : (Scripted → Scripted) → Prop) (b : Bridge Scripted) :
    History → Stage Scripted → Prop
  | opened : Chronicle allowed b [] (.opened b)
  | submit {h : History} {s : Stage Scripted} (request : Request) :
      Chronicle allowed b h s → Chronicle allowed b h (s.submit request)
  | useFuture {h : History} {s : Stage Scripted} (id : Nat) (use : FutureUse) :
      Chronicle allowed b h s → Chronicle allowed b h { s with bridge := s.bridge.useFuture id use }
  /-- A tick begins. -/
  | begin {h : History} {s : Stage Scripted} :
      Chronicle allowed b h s → s.place = .idle → Chronicle allowed b (.tick [] :: h) s.proceed
  | proceed {xs : List Execution} {h : History} {s : Stage Scripted} :
      Chronicle allowed b (.tick xs :: h) s → s.place ≠ .idle →
      Chronicle allowed b (.tick (xs ++ s.runsNext) :: h) s.proceed
  | close {h : History} {s : Stage Scripted} :
      Chronicle allowed b h s → s.place = .idle → Chronicle allowed b h s.close
  | unattended {h : History} {s : Stage Scripted} :
      Chronicle allowed b h s → Chronicle allowed b h { s with bridge := Clocked.unattended s.bridge }
  | outside {h : History} {s : Stage Scripted} (f : Scripted → Scripted) :
      Chronicle allowed b h s → s.place = .idle → allowed f →
      Chronicle allowed b (.change f :: h) { s with bridge := s.bridge.changeMachine f }

namespace Session

/-- What the history says of the session when the ticking side is in a place. Inside a tick the
newest entry is that of the tick so far. -/
inductive Plays (start : Session Scripted) : Place → History → Session Scripted → Prop
  | idle {h : History} {s : Session Scripted} : s = play h.requests start → Plays start .idle h s
  | running {inHand : List Command} {outcomes : List (Outcome Reply)} {deferred : Nat}
      {xs : List Execution} {past : History} {s : Session Scripted} :
      s = (runAll (xs.map (·.command.request)) (play past.requests start)).2 →
      Plays start (.running inHand outcomes deferred) (.tick xs :: past) s
  | stepping {o : OpenTick} {frame : InputFrame} {xs : List Execution} {past : History}
      {s : Session Scripted} :
      s = (runAll (xs.map (·.command.request)) (play past.requests start)).2 →
      s.paused = false → o.frame = some frame → nextFrame.run s = (.ok frame, s) →
      Plays start (.stepping o) (.tick xs :: past) s

end Session

namespace Session.Plays

theorem eq_of_idle {start s : Session Scripted} {place : Place} {h : History}
    (hs : Plays start place h s) (hidle : place = .idle) : s = play h.requests start := by
  cases hs with
  | idle heq => exact heq
  | running _ => cases hidle
  | stepping _ _ _ _ => cases hidle

/-- Inside a tick the history begins with it. -/
theorem exists_tick {start s : Session Scripted} {place : Place} {h : History}
    (hs : Plays start place h s) (hplace : place ≠ .idle) : ∃ xs past, h = .tick xs :: past := by
  cases hs with
  | idle _ => exact absurd rfl hplace
  | running _ => exact ⟨_, _, rfl⟩
  | stepping _ _ _ _ => exact ⟨_, _, rfl⟩

variable {start : Session Scripted} {b : Bridge Scripted} {l : Ledger} {xs : List Execution}
  {past : History}

/-- A command in hand is run after those before it. -/
theorem runCommand {command : Command} {rest : List Command} {outcomes : List (Outcome Reply)}
    {deferred : Nat}
    (h : Plays start (.running (command :: rest) outcomes deferred) (.tick xs :: past) b.session)
    (x : Execution) (hx : x.command = command) :
    Plays start (.running rest (outcomes ++ [(b.runCommand command).1]) deferred)
      (.tick (xs ++ [x]) :: past) (b.runCommand command).2.session := by
  cases h with
  | running heq =>
    refine .running ?_
    rw [List.map_append, List.map_singleton, runAll_concat, ← heq, hx]
    rfl

/-- With no command left in hand, a paused tick is over, and so is one that panics. -/
theorem finish {outcomes : List (Outcome Reply)} {deferred : Nat}
    (h : Plays start (.running [] outcomes deferred) (.tick xs :: past) b.session) :
    Plays start (Stage.proceed ⟨b, .running [] outcomes deferred, l⟩).place (.tick xs :: past)
      (Stage.proceed ⟨b, .running [] outcomes deferred, l⟩).bridge.session := by
  cases h with
  | running heq =>
    have hend : endTick b.session = play (History.requests (.tick xs :: past)) start :=
      congrArg endTick heq
    rw [endTick] at hend
    simp only [Stage.proceed]
    cases hpaused : b.session.paused with
    | true =>
      rw [hpaused, if_pos rfl] at hend
      exact .idle hend
    | false =>
      rw [hpaused, if_neg Bool.false_ne_true, advance] at hend
      have hsame := Scripted.discreet.nextFrame_snd b.session
      rw [if_neg Bool.false_ne_true]
      rcases hnext : nextFrame.run b.session with ⟨p | frame, session⟩
      · rw [hnext] at hend
        exact .idle hend
      · obtain rfl : session = b.session := by rwa [hnext] at hsame
        exact .stepping heq hpaused rfl hnext

/-- The step ends the tick. -/
theorem step {o : OpenTick} (h : Plays start (.stepping o) (.tick xs :: past) b.session) :
    Plays start .idle (.tick xs :: past) (Bridge.closeTick o b).2.session := by
  cases h with
  | @stepping _ frame _ _ _ heq hpaused hframe hnext =>
    have hend : endTick b.session = play (History.requests (.tick xs :: past)) start :=
      congrArg endTick heq
    rw [endTick, hpaused, if_neg Bool.false_ne_true, advance, hnext] at hend
    refine .idle ?_
    rw [Bridge.closeTick, hframe]
    exact hend

/-- A move inside a tick. -/
theorem proceed {s : Stage Scripted} (h : Plays start s.place (.tick xs :: past) s.bridge.session)
    (hplace : s.place ≠ .idle) :
    Plays start s.proceed.place (.tick (xs ++ s.runsNext) :: past) s.proceed.bridge.session := by
  obtain ⟨b, place, l⟩ := s
  match place with
  | .idle => exact absurd rfl hplace
  | .running (command :: rest) outcomes deferred => exact h.runCommand _ rfl
  | .running [] outcomes deferred =>
    simp only [Stage.runsNext, List.append_nil]
    exact h.finish
  | .stepping o =>
    simp only [Stage.runsNext, List.append_nil]
    exact h.step

/-- A command that is run has the outcome that it has in the replay. -/
theorem outcomes_runsNext {s : Stage Scripted}
    (h : Plays start s.place (.tick xs :: past) s.bridge.session)
    (houtcomes : xs.map (·.outcome) =
      (runAll (xs.map (·.command.request)) (play past.requests start)).1) :
    (xs ++ s.runsNext).map (·.outcome) =
      (runAll ((xs ++ s.runsNext).map (·.command.request)) (play past.requests start)).1 := by
  obtain ⟨b, place, l⟩ := s
  match place with
  | .running (command :: rest) outcomes deferred =>
    cases h with
    | running heq =>
      rw [List.map_append, List.map_append, houtcomes, Stage.runsNext, List.map_singleton,
        List.map_singleton, runAll_concat, ← heq]
      rfl
  | .idle => simpa only [Stage.runsNext, List.append_nil] using houtcomes
  | .running [] outcomes deferred =>
    simpa only [Stage.runsNext, List.append_nil] using houtcomes
  | .stepping o => simpa only [Stage.runsNext, List.append_nil] using houtcomes

end Session.Plays

namespace Chronicle

variable {allowed : (Scripted → Scripted) → Prop} {b₀ : Bridge Scripted} {h : History}
  {s : Stage Scripted}

/-- Replaying the history gives the session. -/
theorem plays (hs : Chronicle allowed b₀ h s) :
    Session.Plays b₀.session s.place h s.bridge.session := by
  induction hs with
  | opened => exact .idle rfl
  | submit request _ ih => exact ih
  | useFuture id use _ ih => exact ih
  | @begin h s _ hplace ih =>
    obtain ⟨b, place, l⟩ := s
    cases hplace
    cases ih with
    | idle heq => exact .running heq
  | proceed _ hplace ih => exact ih.proceed hplace
  | close _ _ ih => exact ih
  | unattended _ ih => exact ih
  | @outside h s f _ hplace _ ih =>
    obtain ⟨b, place, l⟩ := s
    cases hplace
    cases ih with
    | idle heq => exact .idle (congrArg (fun t => { t with machine := f t.machine }) heq)

/-- Replaying the history gives all outcomes. -/
theorem outcomes_eq (hs : Chronicle allowed b₀ h s) :
    h.outcomes = Session.answers h.requests b₀.session := by
  induction hs with
  | opened => rfl
  | submit request _ ih => exact ih
  | useFuture id use _ ih => exact ih
  | begin _ _ ih => exact congrArg (List.cons (Entry.tick [])) ih
  | @proceed xs past s hs _ ih =>
    have hcons : Entry.tick (xs.map (·.outcome)) :: past.outcomes =
        .tick (Session.runAll (xs.map (·.command.request))
          (Session.play past.requests b₀.session)).1 ::
          Session.answers past.requests b₀.session := ih
    obtain ⟨hentry, hpast⟩ := List.cons.inj hcons
    exact congr (congrArg (fun ys => List.cons (Entry.tick ys))
      (hs.plays.outcomes_runsNext (Entry.tick.inj hentry))) hpast
  | close _ _ ih => exact ih
  | unattended _ ih => exact ih
  | outside f _ _ _ ih => exact congrArg (List.cons (Entry.change f)) ih

/-- The history has the executions of the ledger. -/
theorem executed_eq (hs : Chronicle allowed b₀ h s) : h.executions = s.ledger.executed := by
  induction hs with
  | opened => rfl
  | submit request _ ih => rw [Stage.executed_submit, ih]
  | useFuture id use _ ih => exact ih
  | begin _ hplace ih =>
    rw [Stage.executed_proceed, ← ih]
    simp [History.executions, Stage.runsNext, hplace]
  | proceed _ _ ih =>
    rw [Stage.executed_proceed, ← ih]
    simp [History.executions]
  | close _ _ ih => exact ih
  | unattended _ ih => exact ih
  | outside f _ _ _ ih => exact ih

theorem change_mem (hs : Chronicle allowed b₀ h s) : ∀ f, .change f ∈ h → allowed f := by
  induction hs with
  | opened => exact fun _ hf => absurd hf List.not_mem_nil
  | submit request _ ih => exact ih
  | useFuture id use _ ih => exact ih
  | begin _ _ ih => exact fun f hf => ih f (History.change_mem_tick.mp hf)
  | proceed _ _ ih =>
    exact fun f hf => ih f (History.change_mem_tick.mpr (History.change_mem_tick.mp hf))
  | close _ _ ih => exact ih
  | unattended _ ih => exact ih
  | outside g _ _ hallowed ih =>
    intro f hf
    rcases List.mem_cons.mp hf with hf | hf
    · cases hf
      exact hallowed
    · exact ih f hf

/-- A whole tick. -/
theorem tick {b : Bridge Scripted} {l : Ledger} (hs : Chronicle allowed b₀ h ⟨b, .idle, l⟩) :
    Chronicle allowed b₀ (.tick b.executions :: h)
      ⟨(Bridge.tick b).2, .idle, l.ran b.executions⟩ := by
  have hinside : Stage.KeptInside fun s => ∃ xs, Chronicle allowed b₀ (.tick xs :: h) s := by
    rintro s hplace ⟨xs, hs⟩
    exact ⟨_, hs.proceed hplace⟩
  obtain ⟨xs, htick⟩ := hinside.tick ⟨_, hs.begin rfl⟩
  have hexecuted : h.executions ++ xs = l.executed ++ b.executions := htick.executed_eq
  obtain rfl : xs = b.executions := by
    rw [hs.executed_eq] at hexecuted
    exact List.append_cancel_left hexecuted
  exact htick

end Chronicle

/-- The stages that a bridge reaches when nobody changes its machine from outside have
chronicles. -/
theorem Reachable.exists_chronicle (allowed : (Scripted → Scripted) → Prop) {b₀ : Bridge Scripted}
    {s : Stage Scripted} (hs : Reachable (fun _ => False) b₀ s) :
    ∃ history, Chronicle allowed b₀ history s := by
  induction hs with
  | opened => exact ⟨_, .opened⟩
  | submit request _ ih =>
    obtain ⟨history, hs⟩ := ih
    exact ⟨_, hs.submit request⟩
  | useFuture id use _ ih =>
    obtain ⟨history, hs⟩ := ih
    exact ⟨_, hs.useFuture id use⟩
  | @proceed s _ ih =>
    obtain ⟨history, hs⟩ := ih
    by_cases hplace : s.place = .idle
    · exact ⟨_, hs.begin hplace⟩
    · obtain ⟨xs, past, rfl⟩ := hs.plays.exists_tick hplace
      exact ⟨_, hs.proceed hplace⟩
  | close _ hplace ih =>
    obtain ⟨history, hs⟩ := ih
    exact ⟨_, hs.close hplace⟩
  | unattended _ ih =>
    obtain ⟨history, hs⟩ := ih
    exact ⟨_, hs.unattended⟩
  | outside _ _ hallowed _ => exact hallowed.elim

/-- The runs of a bridge that its owner ticks have chronicles. -/
theorem Bridge.Run.exists_chronicle {allowed : (Scripted → Scripted) → Prop}
    {b₀ b : Bridge Scripted} {l : Ledger} (h : Bridge.Run allowed b₀ l b) :
    ∃ history, Chronicle allowed b₀ history ⟨b, .idle, l⟩ := by
  induction h with
  | opened => exact ⟨_, .opened⟩
  | submit request _ ih =>
    obtain ⟨history, hs⟩ := ih
    exact ⟨_, hs.submit request⟩
  | useFuture id use _ ih =>
    obtain ⟨history, hs⟩ := ih
    exact ⟨_, hs.useFuture id use⟩
  | tick _ ih =>
    obtain ⟨history, hs⟩ := ih
    exact ⟨_, hs.tick⟩
  | close _ ih =>
    obtain ⟨history, hs⟩ := ih
    exact ⟨_, hs.close rfl⟩
  | outside f _ hallowed ih =>
    obtain ⟨history, hs⟩ := ih
    exact ⟨_, hs.outside f rfl hallowed⟩

/-- Inspection has no side effects. In every stage of a bridge around a quiet scripted machine
nobody is inspecting and nobody has read without inspecting, and a command that only asks leaves
everything as it was, however it ends. So two bridges whose ticks have run the same commands, apart
from those that only ask, have given the other commands the same outcomes, and between two ticks
they have the same sessions. -/
theorem Bridge.reads_go_unnoticed {machine : Scripted} {settings : Settings}
    {b₀ : Bridge Scripted} (hstart : Bridge.start machine settings = .ok b₀)
    (hquiet : machine.Quiet) :
    (∀ s, Reachable (fun change => ∀ m, Scripted.Quiet m → (change m).Quiet) b₀ s →
      s.bridge.session.machine.inspection = false ∧
        s.bridge.session.machine.uninspectedReads = 0 ∧
        ∀ command : Command, command.request.isReadOnly = true →
          (s.bridge.runCommand command).2.session.SameButReads s.bridge.session) ∧
      ∀ (settings' : Settings) (c₀ : Bridge Scripted) (h k : History) (s t : Stage Scripted),
        Bridge.start machine settings' = .ok c₀ → settings'.regions = settings.regions →
        settings'.channelCount = settings.channelCount → settings'.tickRate = settings.tickRate →
        Chronicle Scripted.Unobtrusive b₀ h s → Chronicle Scripted.Unobtrusive c₀ k t →
        h.others.requests = k.others.requests →
        h.others.outcomes = k.others.outcomes ∧
          (s.place = .idle → t.place = .idle →
            s.bridge.session.SameButReads t.bridge.session) := by
  have hopened : b₀.session.machine.Quiet := by
    obtain ⟨map, -, -, rfl⟩ := Bridge.start_eq_ok.mp hstart
    exact hquiet
  constructor
  · intro s hs
    obtain ⟨-, hsquiet⟩ := hs.session_invariant (Session.quiet_invariant _) ⟨rfl, hopened⟩
    refine ⟨hsquiet.inspection_eq, hsquiet.uninspectedReads_eq, fun command hread => ?_⟩
    exact Session.sameButReads_iff.mpr (Session.keeps_of_isReadOnly hsquiet.inspection_eq hread _
      (Session.sameButReads_iff.mp rfl))
  · intro settings' c₀ h k s t hstart' hregions hchannels hrate hs ht hrequests
    have hsame : c₀.session = b₀.session :=
      Bridge.session_eq_of_start hstart hstart' hregions hchannels hrate
    have hanswers := ht.outcomes_eq
    have hplays := ht.plays
    rw [hsame] at hanswers hplays
    obtain ⟨-, hleft, hleft'⟩ := Session.play_others hopened hs.change_mem hs.outcomes_eq
    obtain ⟨-, hright, hright'⟩ := Session.play_others hopened ht.change_mem hanswers
    refine ⟨by rw [hleft', hright', hrequests], fun hidle hidle' => ?_⟩
    rw [hs.plays.eq_of_idle hidle, hplays.eq_of_idle hidle']
    rw [← hrequests] at hright
    exact .of_common (Session.sameButReads_iff.mpr hleft) (Session.sameButReads_iff.mpr hright)

/-- The latch is read, and a range is read up to an address that panics, in the tick of a hold. -/
theorem Bridge.hold_among_reads :
    let machine := Scripted.fresh true false
      { Faults.none with panicOnRead := some (Address.ofNat 0x2004) }
    let hold : Request := .setOverlay ⟨0⟩ ⟨1⟩ ⟨0⟩ (some (.ticks 2))
    let press (m : Scripted) := m.setRaw ⟨0⟩ ⟨2⟩
    let plain := (Bridge.tick (((Bridge.sized machine 4 1).changeMachine press).submit hold).2).2
    let reading := (Bridge.tick (((((Bridge.sized machine 8 3).changeMachine press).submit
      (.readByte Scripted.latch)).2.submit hold).2.submit
      (.batch [.read (Address.ofNat 0x2001) 8])).2).2
    plain.session.SameButReads reading.session ∧
      reading.session.machine.uninspectedReads = 0 ∧
      reading.session.machine.inspectedReads = 4 := by
  intro machine hold press plain reading
  have hpress : Scripted.Unobtrusive press := Scripted.unobtrusive_setRaw ⟨0⟩ ⟨2⟩
  have hquiet : machine.Quiet := ⟨rfl, rfl⟩
  have hstart : Bridge.start machine (.sized 4 1) = .ok (Bridge.sized machine 4 1) :=
    Bridge.start_sized machine (by decide) (by decide)
  have hstart' : Bridge.start machine (.sized 8 3) = .ok (Bridge.sized machine 8 3) :=
    Bridge.start_sized machine (by decide) (by decide)
  obtain ⟨hreachable, -⟩ := Bridge.reads_go_unnoticed hstart' hquiet
  obtain ⟨-, hunnoticed⟩ := Bridge.reads_go_unnoticed hstart hquiet
  have hplain : Chronicle Scripted.Unobtrusive (Bridge.sized machine 4 1) _ ⟨plain, .idle, _⟩ :=
    ((Chronicle.opened.outside press rfl hpress).submit hold).tick
  have hreading : Chronicle Scripted.Unobtrusive (Bridge.sized machine 8 3) _
      ⟨reading, .idle, _⟩ :=
    ((((Chronicle.opened.outside press rfl hpress).submit (.readByte Scripted.latch)).submit
      hold).submit (.batch [.read (Address.ofNat 0x2001) 8])).tick
  have hrun : Bridge.Run (fun change => ∀ m, Scripted.Quiet m → (change m).Quiet) _ _ reading :=
    ((((Bridge.Run.opened.outside press hpress.quiet).submit (.readByte Scripted.latch)).submit
      hold).submit (.batch [.read (Address.ofNat 0x2001) 8])).tick
  obtain ⟨-, hunread, -⟩ := hreachable _ hrun.reachable
  obtain ⟨-, hsession⟩ := hunnoticed _ _ _ _ _ _ hstart' rfl rfl rfl hplain hreading
    (congrArg (fun requests => [Entry.tick requests, .change press]) (by decide +kernel))
  dsimp only at hunread hsession
  exact ⟨hsession rfl rfl, hunread, by decide +kernel⟩

end CommandBridge
