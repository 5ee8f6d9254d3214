import CommandBridge.Proofs.Bridge.Opening
import CommandBridge.Proofs.Bridge.Outcomes
import CommandBridge.Proofs.Session.Questions
import CommandBridge.Proofs.Session.Replay

/-!
# Pauses and budgets do not matter

A `Timeline` is a run of a bridge with a journal of the commands that were run, each with the tick
that was current then. Every reachable stage has one, its entries are those of the ledger, and their
outcomes are the ones that were delivered (`Reachable.exists_timeline`, `Timeline.executed_eq`,
`Timeline.delivered`).

From the journal, the requests of each tick can be replayed (`Session.replay`) without the ones that
pause, resume or ask for the status. `Session.Replays` says that this gives the session itself, but
for the pause flag, and all outcomes. It holds along every timeline before the last tick: commands
of one tick number run one after the other, however many paused ticks they are spread over, and a
paused tick does nothing else to the session. So two bridges that have run the same requests at each
tick agree in everything but the pause flag (`Timeline.eq_of_slices`), whatever their queues and
budgets are.
-/

namespace CommandBridge

open CommandBridge.Action

/-- Executed commands, in order, with the ticks at which they were run. -/
abbrev Journal := List (Tick × Execution)

namespace Journal

/-- The commands that were run at tick `n`, without those that pause, resume or ask for the
status. -/
def slice (j : Journal) (n : Nat) : List Execution :=
  (j.filter fun e => e.1.toNat = n && e.2.command.request.needsSession).map (·.2)

def requests (j : Journal) (n : Nat) : List Request := (j.slice n).map (·.command.request)

def outcomes (j : Journal) (n : Nat) : List (Outcome Reply) := (j.slice n).map (·.outcome)

/-- The requests of a tick depend on nothing but the ticks and requests of the journal. -/
theorem requests_eq (j : Journal) (n : Nat) :
    j.requests n = ((j.map fun e => (e.1.toNat, e.2.command.request)).filter fun e =>
      e.1 = n && e.2.needsSession).map (·.2) := by
  simp [requests, slice, List.filter_map, Function.comp_def]

theorem slice_concat_self {j : Journal} {tick : Tick} {x : Execution}
    (h : x.command.request.needsSession = true) :
    slice (j ++ [(tick, x)]) tick.toNat = j.slice tick.toNat ++ [x] := by
  simp [slice, h]

theorem slice_concat_of_ne {j : Journal} {tick : Tick} {x : Execution} {n : Nat}
    (h : tick.toNat ≠ n) : slice (j ++ [(tick, x)]) n = j.slice n := by
  simp [slice, h]

theorem slice_concat_of_control {j : Journal} {tick : Tick} {x : Execution}
    (h : x.command.request.needsSession = false) : slice (j ++ [(tick, x)]) = j.slice := by
  funext n
  simp [slice, h]

theorem slice_of_lt {j : Journal} {n : Nat} (h : ∀ e ∈ j, e.1.toNat < n) : j.slice n = [] := by
  simp only [slice, List.map_eq_nil_iff, List.filter_eq_nil_iff]
  intro e he
  have := h e he
  simp [show e.1.toNat ≠ n by omega]

end Journal

/-! ### The invariant -/

namespace Session

/-- Replaying the journal gives the session, but for the pause flag, and all outcomes. -/
structure Replays (start : Session Scripted) (j : Journal) (s : Session Scripted) : Prop where
  session_eq : s.unpaused =
    (runAll (j.requests s.tick.toNat) (replay j.requests s.tick.toNat start)).2
  outcomes_eq : ∀ n, j.outcomes n = (runAll (j.requests n) (replay j.requests n start)).1
  le_tick : ∀ e ∈ j, e.1.toNat ≤ s.tick.toNat

namespace Replays

variable {start s : Session Scripted} {j : Journal}

theorem opened (htick : s.tick = Tick.zero) (hpaused : s.paused = false) : Replays s [] s where
  session_eq := by
    rw [htick, unpaused, ← hpaused]
    rfl
  outcomes_eq _ := rfl
  le_tick _ he := absurd he List.not_mem_nil

theorem le_tick_concat (h : Replays start j s) (x : Execution) :
    ∀ e ∈ j ++ [(s.tick, x)], e.1.toNat ≤ s.tick.toNat := by
  intro e he
  rcases List.mem_append.mp he with he | he
  · exact h.le_tick e he
  · simp [List.mem_singleton.mp he]

/-- Requests that pause, resume or ask for the status leave no trace. -/
theorem control (h : Replays start j s) {x : Execution}
    (hx : x.command.request.needsSession = false) :
    Replays start (j ++ [(s.tick, x)]) ((Session.handle x.command.request).run s).2 := by
  have hslice : Journal.slice (j ++ [(s.tick, x)]) = j.slice := Journal.slice_concat_of_control hx
  have hrequests : Journal.requests (j ++ [(s.tick, x)]) = j.requests := by
    funext n
    rw [Journal.requests, hslice, Journal.requests]
  refine ⟨?_, ?_, ?_⟩
  · rw [tick_handle, hrequests, unpaused_handle_of_control hx, h.session_eq]
  · intro n
    rw [hrequests, ← h.outcomes_eq n, Journal.outcomes, hslice, Journal.outcomes]
  · rw [tick_handle]
    exact h.le_tick_concat x

/-- Any other request is the last one of the current tick so far. -/
theorem request (h : Replays start j s) {x : Execution}
    (hx : x.command.request.needsSession = true)
    (houtcome : x.outcome = outcomeOf ((Session.handle x.command.request).run s).1) :
    Replays start (j ++ [(s.tick, x)]) ((Session.handle x.command.request).run s).2 := by
  have hother : ∀ n, s.tick.toNat ≠ n →
      Journal.slice (j ++ [(s.tick, x)]) n = j.slice n := fun n hn => Journal.slice_concat_of_ne hn
  have hself : Journal.slice (j ++ [(s.tick, x)]) s.tick.toNat = j.slice s.tick.toNat ++ [x] :=
    Journal.slice_concat_self hx
  have hreplay : ∀ n ≤ s.tick.toNat,
      replay (Journal.requests (j ++ [(s.tick, x)])) n start = replay j.requests n start := by
    intro n hn
    refine replay_congr (fun m hm => ?_) start
    rw [Journal.requests, hother m (by omega), Journal.requests]
  -- The session that is replayed answers like the one that runs.
  obtain ⟨hanswer, hsession⟩ := alike_handle_unpaused hx s s.unpaused rfl
  have hnow : runAll (Journal.requests (j ++ [(s.tick, x)]) s.tick.toNat)
      (replay (Journal.requests (j ++ [(s.tick, x)])) s.tick.toNat start) =
      (j.outcomes s.tick.toNat ++ [x.outcome],
        ((Session.handle x.command.request).run s).2.unpaused) := by
    rw [hreplay _ (Nat.le_refl _), Journal.requests, hself, List.map_append, List.map_singleton,
      runAll_concat, h.outcomes_eq, houtcome, hanswer, hsession, h.session_eq]
    rfl
  refine ⟨?_, ?_, ?_⟩
  · rw [tick_handle, hnow]
  · intro n
    rcases Nat.lt_trichotomy n s.tick.toNat with hn | rfl | hn
    · rw [hreplay n (by omega), Journal.outcomes, Journal.requests, hother n (by omega)]
      exact h.outcomes_eq n
    · rw [hnow, Journal.outcomes, hself, List.map_append]
      rfl
    · have hnone : j.slice n = [] :=
        Journal.slice_of_lt fun e he => Nat.lt_of_le_of_lt (h.le_tick e he) hn
      rw [Journal.outcomes, Journal.requests, hother n (by omega), hnone]
      rfl
  · rw [tick_handle]
    exact h.le_tick_concat x

theorem handle (h : Replays start j s) (command : Command) :
    Replays start
      (j ++ [(s.tick, ⟨command, outcomeOf ((Session.handle command.request).run s).1⟩)])
      ((Session.handle command.request).run s).2 := by
  cases hneeds : command.request.needsSession with
  | false => exact h.control hneeds
  | true => exact h.request hneeds rfl

theorem step (h : Replays start j s) {frame : InputFrame}
    (hframe : nextFrame.run s = (.ok frame, s)) (hlast : s.tick.toNat < Tick.last) :
    Replays start j (s.step frame).2 := by
  have htick : (s.step frame).2.tick.toNat = s.tick.toNat + 1 := by
    simp only [Session.step, Tick.toNat_next]
    omega
  have hnone : j.slice (s.tick.toNat + 1) = [] :=
    Journal.slice_of_lt fun e he => Nat.lt_succ_of_le (h.le_tick e he)
  refine ⟨?_, h.outcomes_eq, ?_⟩
  · rw [htick, Journal.requests, hnone, unpaused_step hframe, h.session_eq]
    rfl
  · intro e he
    have := h.le_tick e he
    omega

end Replays

end Session

/-! ### Timelines -/

/-- The stages that a new bridge reaches when nobody changes its machine from outside, with a
journal of the commands that were run. -/
inductive Timeline {σ : Type} [Machine σ] (b : Bridge σ) : Journal → Stage σ → Prop
  | opened : Timeline b [] (.opened b)
  | submit {j : Journal} {s : Stage σ} (request : Request) :
      Timeline b j s → Timeline b j (s.submit request)
  | useFuture {j : Journal} {s : Stage σ} (id : Nat) (use : FutureUse) :
      Timeline b j s → Timeline b j { s with bridge := s.bridge.useFuture id use }
  | proceed {j : Journal} {s : Stage σ} : Timeline b j s →
      Timeline b (j ++ s.runsNext.map fun x => (s.bridge.session.tick, x)) s.proceed
  | close {j : Journal} {s : Stage σ} :
      Timeline b j s → s.place = .idle → Timeline b j s.close
  | unattended {j : Journal} {s : Stage σ} :
      Timeline b j s → Timeline b j { s with bridge := Clocked.unattended s.bridge }

section

variable {σ : Type} [Machine σ] {b₀ : Bridge σ} {j : Journal} {s : Stage σ}

/-- The journal has the executions of the ledger. -/
theorem Timeline.executed_eq (h : Timeline b₀ j s) : j.map (·.2) = s.ledger.executed := by
  induction h with
  | opened => rfl
  | submit request _ ih => rw [Stage.executed_submit, ih]
  | useFuture id use _ ih => exact ih
  | proceed _ ih => simp [Stage.executed_proceed, ih, Function.comp_def]
  | close _ _ ih => exact ih
  | unattended _ ih => exact ih

theorem Timeline.reachable (h : Timeline b₀ j s) : Reachable (fun _ => False) b₀ s := by
  induction h with
  | opened => exact .opened
  | submit request _ ih => exact ih.submit request
  | useFuture id use _ ih => exact ih.useFuture id use
  | proceed _ ih => exact ih.proceed
  | close _ hidle ih => exact ih.close hidle
  | unattended _ ih => exact ih.unattended

/-- The outcomes in the journal are the ones that were delivered. -/
theorem Timeline.delivered {machine : σ} {settings : Settings}
    (hstart : Bridge.start machine settings = .ok b₀) (h : Timeline b₀ j s) :
    ∀ e ∈ j, s.bridge.intake.queue.HasTicket e.2.command.id (Ticket.Delivered e.2.outcome) := by
  intro e he
  refine (h.reachable.balanced hstart).executed e.2 ?_
  rw [← h.executed_eq]
  exact List.mem_map_of_mem he

/-- Every stage has a timeline. -/
theorem Reachable.exists_timeline (h : Reachable (fun _ => False) b₀ s) :
    ∃ j, Timeline b₀ j s := by
  induction h with
  | opened => exact ⟨_, .opened⟩
  | submit request _ ih =>
    obtain ⟨j, hj⟩ := ih
    exact ⟨_, hj.submit request⟩
  | useFuture id use _ ih =>
    obtain ⟨j, hj⟩ := ih
    exact ⟨_, hj.useFuture id use⟩
  | proceed _ ih =>
    obtain ⟨j, hj⟩ := ih
    exact ⟨_, hj.proceed⟩
  | close _ hidle ih =>
    obtain ⟨j, hj⟩ := ih
    exact ⟨_, hj.close hidle⟩
  | unattended _ ih =>
    obtain ⟨j, hj⟩ := ih
    exact ⟨_, hj.unattended⟩
  | outside _ _ hallowed _ => exact hallowed.elim

end

/-! ### Runs -/

/-- A step is announced by a frame that was built from the raw input and the overlays. -/
theorem Stage.nextFrame_of_proceed {σ : Type} [Machine σ] {t : Stage σ} {o : OpenTick}
    {frame : InputFrame} (hplace : t.proceed.place = .stepping o)
    (hframe : o.frame = some frame) :
    Session.nextFrame.run t.bridge.session = (.ok frame, t.proceed.bridge.session) := by
  obtain ⟨b, place, l⟩ := t
  match place with
  | .idle => cases hplace
  | .running (command :: rest) outcomes deferred => cases hplace
  | .running [] outcomes deferred =>
    simp only [Stage.proceed] at hplace ⊢
    split at hplace
    · cases hplace
    · rename_i hrunning
      rw [if_neg hrunning]
      dsimp only at hplace
      split at hplace
      · rename_i f hnext
        cases hplace
        cases hframe
        exact Prod.ext hnext rfl
      · cases hplace
  | .stepping o => cases hplace

/-- The frame with which a machine is about to be stepped is the one that its session would build
again. -/
theorem Reachable.frame_eq {b₀ : Bridge Scripted} {s : Stage Scripted}
    (h : Reachable (fun _ => False) b₀ s) :
    ∀ o frame, s.place = .stepping o → o.frame = some frame →
      Session.nextFrame.run s.bridge.session = (.ok frame, s.bridge.session) := by
  induction h with
  | opened =>
    intro o frame hplace
    cases hplace
  | submit request _ ih => exact ih
  | useFuture id use _ ih => exact ih
  | @proceed s _ ih =>
    intro o frame hplace hframe
    have hnext := Stage.nextFrame_of_proceed hplace hframe
    have hsame : s.proceed.bridge.session = s.bridge.session := by
      simpa only [hnext] using Scripted.discreet.nextFrame_snd s.bridge.session
    rwa [hsame] at hnext ⊢
  | close _ hidle ih => exact ih
  | unattended _ ih => exact ih
  | outside _ _ hallowed _ => exact hallowed.elim

namespace Timeline

variable {machine : Scripted} {settings : Settings} {b₀ : Bridge Scripted} {j : Journal}
  {s : Stage Scripted}

/-- One move of the ticking side. -/
theorem replays_proceed {start : Session Scripted} (h : Timeline b₀ j s)
    (hreplays : s.bridge.session.tick.toNat < Tick.last → Session.Replays start j s.bridge.session)
    (hlast : s.proceed.bridge.session.tick.toNat < Tick.last) :
    Session.Replays start (j ++ s.runsNext.map fun x => (s.bridge.session.tick, x))
      s.proceed.bridge.session := by
  have hframe := h.reachable.frame_eq
  obtain ⟨b, place, l⟩ := s
  match place with
  | .idle =>
    simp only [Stage.runsNext, List.map_nil, List.append_nil]
    exact hreplays hlast
  | .running (command :: rest) outcomes deferred =>
    have htick := Session.tick_handle command.request b.session
    exact (hreplays (htick ▸ hlast)).handle command
  | .running [] outcomes deferred =>
    have hsame : (Stage.proceed ⟨b, .running [] outcomes deferred, l⟩).bridge.session =
        b.session := by
      simp only [Stage.proceed]
      split
      · rfl
      · exact Scripted.discreet.nextFrame_snd b.session
    simp only [Stage.runsNext, List.map_nil, List.append_nil]
    rw [hsame] at hlast ⊢
    exact hreplays hlast
  | .stepping o =>
    simp only [Stage.runsNext, List.map_nil, List.append_nil, Stage.proceed,
      Bridge.closeTick] at hlast ⊢
    cases ho : o.frame with
    | none =>
      rw [ho] at hlast
      exact hreplays hlast
    | some frame =>
      rw [ho] at hlast
      -- The tick after the step is not the last one, so the one before is not either.
      have hnext : b.session.tick.next.toNat < Tick.last := hlast
      have hbefore : b.session.tick.toNat < Tick.last := by
        rw [Tick.toNat_next] at hnext
        omega
      exact (hreplays hbefore).step (hframe o frame rfl ho) hbefore

/-- Along every timeline the journal replays, as long as there are ticks left. -/
theorem replays (hstart : Bridge.start machine settings = .ok b₀) (h : Timeline b₀ j s)
    (hlast : s.bridge.session.tick.toNat < Tick.last) :
    Session.Replays b₀.session j s.bridge.session := by
  induction h with
  | opened =>
    obtain ⟨regions, -, -, rfl⟩ := Bridge.start_eq_ok.mp hstart
    exact .opened rfl rfl
  | submit request _ ih => exact ih hlast
  | useFuture id use _ ih => exact ih hlast
  | proceed h ih => exact h.replays_proceed ih hlast
  | close _ _ ih => exact ih hlast
  | unattended _ ih => exact ih hlast

/-- Two bridges around the same machine with the same regions, channels and tick rate, at the same
tick before the last one. If they have run the same requests at each tick, apart from those that
pause, resume or ask for the status, then their machines are in the same state, with all frames,
memory and save slots, their overlays are the same, and these requests have had the same
outcomes. -/
theorem eq_of_slices {settings' : Settings} {c₀ : Bridge Scripted} {k : Journal}
    {t : Stage Scripted} (hstart : Bridge.start machine settings = .ok b₀)
    (hstart' : Bridge.start machine settings' = .ok c₀)
    (hregions : settings'.regions = settings.regions)
    (hchannels : settings'.channelCount = settings.channelCount)
    (hrate : settings'.tickRate = settings.tickRate)
    (hs : Timeline b₀ j s) (ht : Timeline c₀ k t)
    (hslices : ∀ n, j.requests n = k.requests n)
    (htick : s.bridge.session.tick = t.bridge.session.tick)
    (hlast : s.bridge.session.tick.toNat < Tick.last) :
    s.bridge.session.machine = t.bridge.session.machine ∧
      s.bridge.session.overlays = t.bridge.session.overlays ∧
      ∀ n, j.outcomes n = k.outcomes n := by
  have hsame : c₀.session = b₀.session := by
    have hmap := Bridge.regions_eq_of_start hstart hstart' hregions
    obtain ⟨map, -, -, rfl⟩ := Bridge.start_eq_ok.mp hstart
    obtain ⟨map', -, -, rfl⟩ := Bridge.start_eq_ok.mp hstart'
    dsimp only at hmap ⊢
    rw [hmap, hchannels, hrate]
  have hleft := hs.replays hstart hlast
  have hright := ht.replays hstart' (htick ▸ hlast)
  have hrequests : k.requests = j.requests := funext fun n => (hslices n).symm
  have hsession : s.bridge.session.unpaused = t.bridge.session.unpaused := by
    rw [hleft.session_eq, hright.session_eq, hsame, hrequests, htick]
  refine ⟨congrArg (·.machine) hsession, congrArg (·.overlays) hsession, fun n => ?_⟩
  rw [hleft.outcomes_eq, hright.outcomes_eq, hsame, hrequests]

/-- A hold that is put in place in the only tick before a step, or in a paused tick before it. -/
theorem eq_of_hold_in_paused_tick :
    let machine := Scripted.fresh true false Faults.none
    let hold : Request := .setOverlay ⟨0⟩ ⟨1⟩ ⟨0⟩ (some (.ticks 2))
    let plain := ((Stage.opened (Bridge.sized machine 4 1)).submit
      hold).proceed.proceed.proceed.proceed
    let paused := ((((Stage.opened (Bridge.sized machine 8 2)).submit .pause).submit
      hold).proceed.proceed.proceed.proceed.submit .resume).proceed.proceed.proceed.proceed
    plain.bridge.session.machine = paused.bridge.session.machine ∧
      plain.bridge.session.overlays = paused.bridge.session.overlays := by
  intro machine hold plain paused
  obtain ⟨j, hplain, hj⟩ : ∃ j, Timeline (Bridge.sized machine 4 1) j plain ∧
      j.map (fun e => (e.1.toNat, e.2.command.request)) = [(0, hold)] :=
    ⟨_, (opened.submit hold).proceed.proceed.proceed.proceed, by decide +kernel⟩
  obtain ⟨k, hpaused, hk⟩ : ∃ k, Timeline (Bridge.sized machine 8 2) k paused ∧
      k.map (fun e => (e.1.toNat, e.2.command.request)) = [(0, .pause), (0, hold), (0, .resume)] :=
    ⟨_, ((((opened.submit .pause).submit hold).proceed.proceed.proceed.proceed).submit
      .resume).proceed.proceed.proceed.proceed, by decide +kernel⟩
  have hslices : ∀ n, j.requests n = k.requests n := by
    intro n
    rw [Journal.requests_eq, Journal.requests_eq, hj, hk]
    cases n <;> rfl
  have htick : plain.bridge.session.tick = paused.bridge.session.tick := by decide +kernel
  have hlast : plain.bridge.session.tick.toNat < Tick.last := by decide +kernel
  have hstart : Bridge.start machine (.sized 4 1) = .ok (Bridge.sized machine 4 1) :=
    Bridge.start_sized machine (by decide) (by decide)
  have hstart' : Bridge.start machine (.sized 8 2) = .ok (Bridge.sized machine 8 2) :=
    Bridge.start_sized machine (by decide) (by decide)
  obtain ⟨hmachine, hoverlays, -⟩ :=
    eq_of_slices hstart hstart' rfl rfl rfl hplain hpaused hslices htick hlast
  exact ⟨hmachine, hoverlays⟩

end Timeline

end CommandBridge
