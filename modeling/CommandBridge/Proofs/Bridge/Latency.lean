import CommandBridge.Proofs.Bridge.Accounts
import CommandBridge.Proofs.Bridge.Loop

/-!
# How long a command waits

A command that finds `d` others waiting when it is accepted has its outcome in tick `d / B + 1`
from then on, where `B` is the budget of a tick: not after an earlier one, whatever else is
submitted, and not after a later one, whatever happens in the ticks (`Reachable.bounded_latency`).

The measure is the number of commands that were ever taken out of the queue (`Stage.taken`). Only
the first move of a tick changes it, by the budget or by all that wait, and a command with number
`id` waits exactly as long as the measure is at most `id`, because numbers are stamped in order and
nothing overtakes. So the measure is known up to what is behind the command (`Stage.Due`), and
that is all that is needed.

`Bridge.execute` bounds its loop by the number of waiting commands. The loop without a bound is
the relation `Bridge.Awaits`; it ends, with the answer of `Bridge.execute`, in the tick foretold,
unless a panic escapes from one of the ticks before.
-/

namespace CommandBridge

variable {σ : Type}

/-! ### Taking an outcome -/

namespace Bridge

variable {b : Bridge σ} {id : Nat}

theorem poll_of_open (h : b.intake.queue.HasTicket id Ticket.Open) : b.poll id = (none, b) := by
  obtain ⟨t, ht, hopen⟩ := h
  have hticket : b.intake.ticket? id = some t := ht
  have hsame : b.intake.queue.modifyTicket id (·.poll.2) = b.intake.queue := by
    refine Queue.modifyTicket_eq_self fun t' ht' => ?_
    rw [ht] at ht'
    cases ht'
    rw [hopen.poll_eq]
  simp only [poll, hticket, hopen.poll_eq, Intake.modifyTicket, hsame]

theorem poll_of_delivered {outcome : Outcome Reply}
    (h : b.intake.queue.HasTicket id fun t => t.Delivered outcome ∧ t.future = .waiting) :
    (b.poll id).1 = some outcome := by
  obtain ⟨t, ht, hdelivered, hfuture⟩ := h
  have hticket : b.intake.ticket? id = some t := ht
  simp only [poll, hticket, hdelivered.poll_eq hfuture]

/-- What an accepted submission does to the queue. -/
theorem submit_eq_ok {request : Request} (h : (b.submit request).1 = .ok id) :
    b.intake.queue.closed = false ∧ id = b.intake.queue.tickets.size ∧
      (b.submit request).2.intake.queue = { b.intake.queue with
        waiting := b.intake.queue.waiting ++ [⟨id, request, b.intake.tick⟩]
        tickets := b.intake.queue.tickets.push (Ticket.issue id) } := by
  rcases b.intake.submit_cases request with ⟨e, hanswer, -⟩ | ⟨-, hopen, hanswer, hqueue⟩
  · have hrefused : (b.submit request).1 = .error e := hanswer
    rw [hrefused] at h
    cases h
  · have hid : (b.submit request).1 = .ok b.intake.queue.tickets.size := hanswer
    rw [hid] at h
    cases h
    exact ⟨hopen, rfl, hqueue⟩

end Bridge

/-! ### How far the queue has come -/

/-- How many commands were taken out of the queue by now. -/
def Stage.taken (s : Stage σ) : Nat := s.ledger.executed.length + s.place.inHand.length

namespace Ledger.Balanced

variable {l : Ledger} {limits : Limits} {inHand : List Command} {q : Queue} {id : Nat}

theorem length_accepted (h : Balanced l limits inHand q) : l.accepted.length = q.tickets.size := by
  rw [← List.length_map (·.id), h.ids_eq, List.length_range]

/-- The number of a command is its place among the accepted ones. -/
theorem id_getElem (h : Balanced l limits inHand q) (hlt : id < l.accepted.length) :
    l.accepted[id].id = id := by
  have hlt' : id < (l.accepted.map (·.id)).length := by rwa [List.length_map]
  have hid : (l.accepted.map (·.id))[id] = id := by
    simp only [h.ids_eq, List.getElem_range]
  rwa [List.getElem_map] at hid

/-- As long as nothing was cancelled, what was accepted was run, is in hand or waits. -/
theorem accepted_of_open (h : Balanced l limits inHand q) (hcancelled : l.cancelled = []) :
    l.accepted = l.executed.map (·.command) ++ (inHand ++ q.waiting) := by
  rw [h.accepted_eq, hcancelled, List.nil_append, List.append_assoc]

/-- A command that was not run has nothing delivered. -/
theorem open_of_le (h : Balanced l limits inHand q) (hcancelled : l.cancelled = [])
    (hle : l.executed.length ≤ id) (hlt : id < q.tickets.size) : q.HasTicket id Ticket.Open := by
  have haccepted := h.accepted_of_open hcancelled
  rw [← h.length_accepted] at hlt
  have hmem : l.accepted[id] ∈ inHand ++ q.waiting := by
    have hge : (l.executed.map (·.command)).length ≤ id := by rwa [List.length_map]
    simp only [haccepted, List.getElem_append_right hge]
    exact List.getElem_mem _
  have hopen := h.owed _ hmem
  rwa [h.id_getElem hlt] at hopen

/-- A command that was run has an outcome. -/
theorem delivered_of_lt (h : Balanced l limits inHand q) (hlt : id < l.executed.length) :
    ∃ outcome, q.HasTicket id (Ticket.Delivered outcome) := by
  have haccepted : l.accepted = l.executed.map (·.command) ++
      (inHand ++ (l.cancelled ++ q.waiting)) := by
    rw [h.accepted_eq, List.append_assoc]
  have hlt' : id < (l.executed.map (·.command)).length := by rwa [List.length_map]
  have hid : l.executed[id].command.id = id := by
    have hplace : id < l.accepted.length := by
      rw [haccepted, List.length_append]
      exact Nat.lt_add_right _ hlt'
    have hid := h.id_getElem hplace
    simpa only [haccepted, List.getElem_append_left hlt', List.getElem_map] using hid
  have hdelivered := h.executed _ (List.getElem_mem hlt)
  rw [hid] at hdelivered
  exact ⟨_, hdelivered⟩

end Ledger.Balanced

namespace Stage

@[simp] theorem taken_submit (s : Stage σ) (request : Request) :
    (s.submit request).taken = s.taken := by
  rw [taken, executed_submit]
  rfl

theorem ledger_submit (s : Stage σ) (request : Request) :
    (s.submit request).ledger.cancelled = s.ledger.cancelled ∧
      s.ledger.accepted.length ≤ (s.submit request).ledger.accepted.length := by
  simp only [submit, Ledger.submitted]
  split
  · exact ⟨rfl, by simp⟩
  · exact ⟨rfl, Nat.le_refl _⟩

/-- Commands that were not taken out wait, as long as nothing was cancelled. -/
theorem Balanced.taken_add {s : Stage σ} (h : s.Balanced) (hcancelled : s.ledger.cancelled = []) :
    s.taken + s.bridge.intake.queue.length = s.ledger.accepted.length := by
  rw [h.accepted_of_open hcancelled, taken]
  simp only [List.length_append, List.length_map, Queue.length]
  omega

variable [Machine σ]

theorem ledger_proceed (s : Stage σ) : ∃ executions, s.proceed.ledger = s.ledger.ran executions := by
  obtain ⟨b, place, l⟩ := s
  match place with
  | .idle => exact ⟨[], l.ran_nil.symm⟩
  | .running (command :: rest) outcomes deferred => exact ⟨_, rfl⟩
  | .running [] outcomes deferred =>
    refine ⟨[], ?_⟩
    simp only [proceed, Ledger.ran_nil]
    split <;> rfl
  | .stepping o => exact ⟨[], l.ran_nil.symm⟩

/-- A tick begins by taking out as many commands as its budget allows. -/
theorem taken_begin {s : Stage σ} (hplace : s.place = .idle) :
    s.proceed.taken = s.taken + min s.bridge.budget s.bridge.intake.queue.length := by
  obtain ⟨b, place, l⟩ := s
  cases hplace
  have hbatch : b.batch.length = min b.budget b.intake.queue.length := List.length_take
  rw [← hbatch]
  rfl

/-- Inside a tick no command is taken out. -/
theorem taken_proceed {s : Stage σ} (hplace : s.place ≠ .idle) : s.proceed.taken = s.taken := by
  obtain ⟨b, place, l⟩ := s
  match place with
  | .idle => exact absurd rfl hplace
  | .running (command :: rest) outcomes deferred =>
    simp only [proceed, taken, Ledger.ran, Place.inHand, List.length_append, List.length_cons,
      List.length_nil]
    omega
  | .running [] outcomes deferred =>
    simp only [proceed, taken]
    split
    · rfl
    · split <;> rfl
  | .stepping o => rfl

/-- No move of the ticking side uses a future. -/
theorem future_proceed {s : Stage σ} {id : Nat} {future : Future}
    (h : s.bridge.intake.queue.HasTicket id (·.future = future)) :
    s.proceed.bridge.intake.queue.HasTicket id (·.future = future) := by
  obtain ⟨b, place, l⟩ := s
  match place with
  | .idle => exact h.congr rfl
  | .running (command :: rest) outcomes deferred =>
    refine Queue.HasTicket.modify h (fun t ht => ?_) command.id
    rw [t.future_complete, ht]
  | .running [] outcomes deferred =>
    simp only [proceed]
    split
    · rw [Bridge.queue_closeTick]
      exact h
    · exact h
  | .stepping o =>
    simp only [proceed]
    rw [Bridge.queue_closeTick]
    exact h

end Stage

/-! ### After the submission -/

/-- The stages that follow stage `s` when `k` more ticks have begun, as long as the bridge is not
closed and nobody uses the future of command `id`. -/
inductive Stage.Onward [Machine σ] (allowed : (σ → σ) → Prop) (id : Nat) (s : Stage σ) :
    Nat → Stage σ → Prop
  | now : Onward allowed id s 0 s
  | submit {k : Nat} {t : Stage σ} (request : Request) :
      Onward allowed id s k t → Onward allowed id s k (t.submit request)
  | useFuture {k : Nat} {t : Stage σ} (other : Nat) (use : FutureUse) :
      Onward allowed id s k t → other ≠ id →
      Onward allowed id s k { t with bridge := t.bridge.useFuture other use }
  /-- A tick begins. -/
  | begin {k : Nat} {t : Stage σ} :
      Onward allowed id s k t → t.place = .idle → Onward allowed id s (k + 1) t.proceed
  | proceed {k : Nat} {t : Stage σ} :
      Onward allowed id s k t → t.place ≠ .idle → Onward allowed id s k t.proceed
  | outside {k : Nat} {t : Stage σ} (change : σ → σ) :
      Onward allowed id s k t → allowed change →
      Onward allowed id s k { t with bridge := t.bridge.changeMachine change }

namespace Stage.Onward

variable [Machine σ] {allowed : (σ → σ) → Prop} {id k : Nat} {b₀ : Bridge σ} {s t : Stage σ}

theorem reachable (hs : Reachable allowed b₀ s) (h : Onward allowed id s k t) :
    Reachable allowed b₀ t := by
  induction h with
  | now => exact hs
  | submit request _ ih => exact ih.submit request
  | useFuture other use _ _ ih => exact ih.useFuture other use
  | begin _ _ ih => exact ih.proceed
  | proceed _ _ ih => exact ih.proceed
  | outside change _ hallowed ih => exact ih.outside change hallowed

/-- A whole tick. -/
theorem tick {b : Bridge σ} {l : Ledger} (h : Onward allowed id s k ⟨b, .idle, l⟩) :
    Onward allowed id s (k + 1) ⟨(Bridge.tick b).2, .idle, l.ran b.executions⟩ :=
  Stage.KeptInside.tick (fun _ hplace ht => ht.proceed hplace) (h.begin rfl)

end Stage.Onward

/-- What is known of the command with number `id` when `k` ticks with a budget have begun since the
time at which `before` commands had been taken out of the queue. -/
structure Stage.Due (id before budget k : Nat) (t : Stage σ) : Prop where
  accepted : id < t.ledger.accepted.length
  cancelled_eq : t.ledger.cancelled = []
  unused : t.bridge.intake.queue.HasTicket id (·.future = .waiting)
  taken_le : t.taken ≤ before + k * budget
  /-- Each tick has used up its budget, until the command itself was taken out. -/
  le_taken : min (id + 1) (before + k * budget) ≤ t.taken

namespace Stage.Due

variable {id before budget k : Nat} {t : Stage σ}

/-- What is submitted later goes behind. -/
theorem submit (h : Due id before budget k t) (request : Request) :
    Due id before budget k (t.submit request) := by
  obtain ⟨hcancelled, haccepted⟩ := t.ledger_submit request
  refine ⟨Nat.lt_of_lt_of_le h.accepted haccepted, hcancelled.trans h.cancelled_eq, ?_, ?_, ?_⟩
  · rcases t.bridge.intake.submit_cases request with ⟨-, -, hqueue⟩ | ⟨-, -, -, hqueue⟩
    · exact h.unused.congr (congrArg Queue.tickets hqueue)
    · exact (h.unused.push _).congr (congrArg Queue.tickets hqueue)
  · rw [taken_submit]
    exact h.taken_le
  · rw [taken_submit]
    exact h.le_taken

/-- An accepted command is behind those that wait. -/
theorem of_submit (budget : Nat) {request : Request} (hbalanced : t.Balanced)
    (hsubmit : (t.bridge.submit request).1 = .ok id) :
    t.taken + t.bridge.intake.queue.length = id ∧
      Due id t.taken budget 0 (t.submit request) := by
  obtain ⟨hopen, rfl, hqueue⟩ := Bridge.submit_eq_ok hsubmit
  have hcancelled := hbalanced.cancelled_eq hopen
  have hlength := hbalanced.taken_add hcancelled
  refine ⟨by rw [hlength, hbalanced.length_accepted], ?_, ?_, ?_, ?_, ?_⟩
  · rw [Stage.submit, hsubmit, Ledger.submitted]
    simp [hbalanced.length_accepted]
  · exact (t.ledger_submit request).1.trans hcancelled
  · refine Queue.HasTicket.congr ?_ (congrArg Queue.tickets hqueue)
    exact Queue.hasTicket_push_size _ rfl
  · rw [taken_submit]
    omega
  · rw [taken_submit]
    omega

/-- A command that was not taken out has no outcome. -/
theorem not_ready (h : Due id before budget k t) (hbalanced : t.Balanced)
    (hle : before + k * budget ≤ id) : t.bridge.intake.queue.HasTicket id Ticket.Open := by
  have hlt := h.accepted
  rw [hbalanced.length_accepted] at hlt
  have htaken := h.taken_le
  rw [taken] at htaken
  exact hbalanced.open_of_le h.cancelled_eq (by omega) hlt

/-- Between two ticks, a command that was taken out has its outcome. -/
theorem ready (h : Due id before budget k t) (hbalanced : t.Balanced)
    (hlt : id < before + k * budget) (hplace : t.place = .idle) :
    ∃ outcome, t.bridge.intake.queue.HasTicket id fun x =>
      x.Delivered outcome ∧ x.future = .waiting := by
  have htaken := h.le_taken
  simp only [taken, hplace, Place.inHand, List.length_nil] at htaken
  obtain ⟨outcome, x, hx, hdelivered⟩ :=
    hbalanced.delivered_of_lt (show id < t.ledger.executed.length by omega)
  obtain ⟨x', hx', hfuture⟩ := h.unused
  rw [hx] at hx'
  cases hx'
  exact ⟨outcome, x, hx, hdelivered, hfuture⟩

variable [Machine σ]

theorem proceed (h : Due id before budget k t) (hplace : t.place ≠ .idle) :
    Due id before budget k t.proceed := by
  obtain ⟨executions, hledger⟩ := t.ledger_proceed
  refine ⟨?_, ?_, future_proceed h.unused, ?_, ?_⟩
  · rw [hledger]
    exact h.accepted
  · rw [hledger]
    exact h.cancelled_eq
  · rw [taken_proceed hplace]
    exact h.taken_le
  · rw [taken_proceed hplace]
    exact h.le_taken

/-- A tick takes out its budget, or all that wait, and then the command is among them. -/
theorem begin (h : Due id before budget k t) (hbalanced : t.Balanced)
    (hbudget : t.bridge.budget = budget) (hplace : t.place = .idle) :
    Due id before budget (k + 1) t.proceed := by
  obtain ⟨executions, hledger⟩ := t.ledger_proceed
  have hlength := hbalanced.taken_add h.cancelled_eq
  have htaken := taken_begin hplace
  rw [hbudget] at htaken
  have hle := h.taken_le
  have hge := h.le_taken
  have hid := h.accepted
  refine ⟨?_, ?_, future_proceed h.unused, ?_, ?_⟩
  · rw [hledger]
    exact hid
  · rw [hledger]
    exact h.cancelled_eq
  · rw [htaken, Nat.succ_mul]
    omega
  · rw [htaken, Nat.succ_mul]
    omega

end Stage.Due

theorem Bridge.budget_of_start {machine : σ} {settings : Settings} {b₀ : Bridge σ}
    (hstart : Bridge.start machine settings = .ok b₀) :
    b₀.budget = settings.commandsPerTick.toNat ∧ 0 < settings.commandsPerTick.toNat := by
  obtain ⟨regions, hcheck, -, rfl⟩ := Bridge.start_eq_ok.mp hstart
  obtain ⟨-, hbudget, -⟩ := Settings.check_eq_ok.mp hcheck
  exact ⟨rfl, Nat.pos_of_ne_zero fun hzero => hbudget (UInt64.toNat_inj.mp hzero)⟩

namespace Stage.Onward

variable [Machine σ] {allowed : (σ → σ) → Prop} {machine : σ} {settings : Settings}
  {b₀ : Bridge σ} {s t : Stage σ} {id k : Nat} {request : Request}

theorem due {before : Nat} (hstart : Bridge.start machine settings = .ok b₀)
    (hs : Reachable allowed b₀ s) (hdue : Due id before b₀.budget 0 s)
    (h : Onward allowed id s k t) : Due id before b₀.budget k t := by
  induction h with
  | now => exact hdue
  | submit request _ ih => exact ih.submit request
  | useFuture other use _ hne ih =>
    exact { ih with unused := ih.unused.modify_of_ne hne _ }
  | begin hon hplace ih =>
    have hreach := hon.reachable hs
    exact ih.begin (hreach.balanced hstart) hreach.budget_eq hplace
  | proceed _ hplace ih => exact ih.proceed hplace
  | outside change _ _ ih => exact { ih with }

section

variable (hstart : Bridge.start machine settings = .ok b₀) (hs : Reachable allowed b₀ s)
  (hsubmit : (s.bridge.submit request).1 = .ok id) (h : Onward allowed id (s.submit request) k t)
include hstart hs hsubmit h

/-- A command is behind those that wait when it is accepted. -/
theorem due_of_submit : t.Balanced ∧ s.taken + s.bridge.intake.queue.length = id ∧
    Due id s.taken settings.commandsPerTick.toNat k t := by
  have hsubmitted : Reachable allowed b₀ (s.submit request) := hs.submit request
  obtain ⟨hid, hdue⟩ := Due.of_submit b₀.budget (hs.balanced hstart) hsubmit
  rw [← (Bridge.budget_of_start hstart).1]
  exact ⟨(h.reachable hsubmitted).balanced hstart, hid, h.due hstart hsubmitted hdue⟩

/-- The command has no outcome as long as the ticks have not used up those before it. -/
theorem open_of_lt
    (hk : k < s.bridge.intake.queue.length / settings.commandsPerTick.toNat + 1) :
    t.bridge.intake.queue.HasTicket id Ticket.Open := by
  obtain ⟨hbalanced, hid, hdue⟩ := h.due_of_submit hstart hs hsubmit
  obtain ⟨-, hpos⟩ := Bridge.budget_of_start hstart
  have hle := (Nat.le_div_iff_mul_le hpos).mp (Nat.le_of_lt_succ hk)
  exact hdue.not_ready hbalanced (by omega)

/-- After one more tick it has. -/
theorem ready_of_le
    (hk : s.bridge.intake.queue.length / settings.commandsPerTick.toNat + 1 ≤ k)
    (hplace : t.place = .idle) : ∃ outcome, t.bridge.intake.queue.HasTicket id fun x =>
      x.Delivered outcome ∧ x.future = .waiting := by
  obtain ⟨hbalanced, hid, hdue⟩ := h.due_of_submit hstart hs hsubmit
  obtain ⟨-, hpos⟩ := Bridge.budget_of_start hstart
  have hlt := (Nat.div_lt_iff_lt_mul hpos).mp hk
  exact hdue.ready hbalanced (by omega) hplace

end

end Stage.Onward

/-! ### Ticking until an outcome is there -/

namespace Bridge

variable [Machine σ]

/-- Ticking a bridge and then trying to take the outcome of a command, until it is there, ends in
tick `n`, with an answer and a bridge. -/
inductive Awaits (id : Nat) : Nat → Bridge σ → Except Panic (Outcome Reply) × Bridge σ → Prop
  | ready {b b' : Bridge σ} {report : TickReport} {outcome : Outcome Reply} :
      tick.run b = (.ok report, b') → (b'.poll id).1 = some outcome →
      Awaits id 1 b (.ok outcome, (b'.poll id).2)
  | again {n : Nat} {b b' : Bridge σ} {report : TickReport}
      {r : Except Panic (Outcome Reply) × Bridge σ} :
      tick.run b = (.ok report, b') → (b'.poll id).1 = none → Awaits id n (b'.poll id).2 r →
      Awaits id (n + 1) b r
  | panicked {b b' : Bridge σ} {p : Panic} :
      tick.run b = (.error p, b') → Awaits id 1 b (.error p, b')

/-- After a tick that has answered, the outcome is taken if it is there. -/
theorem tickUntil_succ {id fuel : Nat} {b b' : Bridge σ} {report : TickReport}
    (htick : tick.run b = (.ok report, b')) : (tickUntil id (fuel + 1)).run b =
      match (b'.poll id).1 with
      | some outcome => (.ok outcome, (b'.poll id).2)
      | none => (tickUntil id fuel).run (b'.poll id).2 := by
  have hlook : Action.run (fun c => (.ok (c.poll id).1, (c.poll id).2)) b' =
      (.ok (b'.poll id).1, (b'.poll id).2) := rfl
  rw [tickUntil, Action.run_bind_of_ok htick]
  refine (Action.run_bind_of_ok hlook).trans ?_
  cases (b'.poll id).1 <;> rfl

/-- A bound that is not below the number of ticks makes no difference. -/
theorem Awaits.tickUntil_eq {id n fuel : Nat} {b : Bridge σ}
    {r : Except Panic (Outcome Reply) × Bridge σ} (h : Awaits id n b r) (hle : n ≤ fuel) :
    (tickUntil id fuel).run b = r := by
  induction h generalizing fuel with
  | ready htick hpoll =>
    obtain ⟨fuel, rfl⟩ := Nat.exists_eq_add_of_le' hle
    rw [tickUntil_succ htick, hpoll]
  | again htick hpoll _ ih =>
    obtain ⟨fuel, rfl⟩ := Nat.exists_eq_add_of_le' (Nat.le_of_add_left_le hle)
    rw [tickUntil_succ htick, hpoll]
    exact ih (Nat.le_of_succ_le_succ hle)
  | panicked htick =>
    obtain ⟨fuel, rfl⟩ := Nat.exists_eq_add_of_le' hle
    rw [tickUntil, Action.run_bind_of_error htick]

theorem execute_of_awaits {id n : Nat} {b : Bridge σ} {request : Request}
    {r : Except Panic (Outcome Reply) × Bridge σ} (hsubmit : (b.submit request).1 = .ok id)
    (h : Awaits id n (b.submit request).2 r)
    (hle : n ≤ (b.submit request).2.intake.queue.length) : (execute request).run b = r := by
  have hexecute : (execute request).run b =
      (tickUntil id (b.submit request).2.intake.queue.length).run (b.submit request).2 := by
    rw [Action.run, execute]
    rcases hb : b.submit request with ⟨answer, b'⟩
    rw [hb] at hsubmit
    cases hsubmit
    rfl
  rw [hexecute, h.tickUntil_eq hle]

/-- Ticking until the outcome of a command is there takes `n` ticks, unless a panic escapes from one
of them. -/
structure Timely (id n : Nat) (b : Bridge σ) : Prop where
  answers : ∀ c, (ticks n).run b = (.ok (), c) → ∃ outcome, (c.poll id).1 = some outcome ∧
    Awaits id n b (.ok outcome, (c.poll id).2)
  panics : ∀ p c, (ticks n).run b = (.error p, c) → ∃ m ≤ n, Awaits id m b (.error p, c)

namespace Timely

variable {id n : Nat} {b b' : Bridge σ} {report : TickReport}

theorem of_panicked {p : Panic} (htick : tick.run b = (.error p, b')) : Timely id (n + 1) b := by
  constructor <;> rw [ticks, Action.run_bind_of_error htick]
  · nofun
  · rintro _ _ ⟨⟩
    exact ⟨1, Nat.le_add_left _ _, .panicked htick⟩

theorem of_ready {outcome : Outcome Reply} (htick : tick.run b = (.ok report, b'))
    (hpoll : (b'.poll id).1 = some outcome) : Timely id 1 b := by
  constructor <;> rw [ticks, Action.run_bind_of_ok htick]
  · rintro _ ⟨⟩
    exact ⟨outcome, hpoll, .ready htick hpoll⟩
  · nofun

theorem of_next (htick : tick.run b = (.ok report, b')) (hpoll : b'.poll id = (none, b'))
    (h : Timely id n b') : Timely id (n + 1) b := by
  have hagain : ∀ {m r}, Awaits id m b' r → Awaits id (m + 1) b r := by
    intro m r hr
    refine .again htick (congrArg Prod.fst hpoll) ?_
    rwa [hpoll]
  constructor <;> rw [ticks, Action.run_bind_of_ok htick]
  · intro c hc
    obtain ⟨outcome, htaken, hawaits⟩ := h.answers c hc
    exact ⟨outcome, htaken, hagain hawaits⟩
  · intro p c hc
    obtain ⟨m, hle, hawaits⟩ := h.panics p c hc
    exact ⟨m + 1, Nat.succ_le_succ hle, hagain hawaits⟩

end Timely

/-- A command that has its outcome after so many ticks, and not before, is waited for as long. -/
theorem timely_of_onward {allowed : (σ → σ) → Prop} {s : Stage σ} {id last : Nat}
    (hearly : ∀ k c l, k < last → Stage.Onward allowed id s k ⟨c, .idle, l⟩ →
      c.poll id = (none, c))
    (hready : ∀ c l, Stage.Onward allowed id s last ⟨c, .idle, l⟩ →
      ∃ outcome, (c.poll id).1 = some outcome)
    {n k : Nat} {b : Bridge σ} {l : Ledger} (h : Stage.Onward allowed id s k ⟨b, .idle, l⟩)
    (hlast : k + (n + 1) = last) : Timely id (n + 1) b := by
  induction n generalizing k b l with
  | zero =>
    have hnext := h.tick
    rcases htick : tick.run b with ⟨p | report, b'⟩
    · exact .of_panicked htick
    · rw [show (tick b).2 = b' from congrArg Prod.snd htick, hlast] at hnext
      obtain ⟨outcome, hpoll⟩ := hready b' _ hnext
      exact .of_ready htick hpoll
  | succ n ih =>
    have hnext := h.tick
    rcases htick : tick.run b with ⟨p | report, b'⟩
    · exact .of_panicked htick
    · rw [show (tick b).2 = b' from congrArg Prod.snd htick] at hnext
      exact .of_next htick (hearly (k + 1) b' _ (by omega) hnext) (ih hnext (by omega))

/-- A command that is accepted between two ticks is waited for until those before it have been taken
out of the queue. -/
theorem timely_of_submit {allowed : (σ → σ) → Prop} {machine : σ} {settings : Settings}
    {b₀ : Bridge σ} {s : Stage σ} {request : Request} {id : Nat}
    (hstart : start machine settings = .ok b₀) (hs : Reachable allowed b₀ s)
    (hsubmit : (s.bridge.submit request).1 = .ok id) (hplace : s.place = .idle) :
    Timely id (s.bridge.intake.queue.length / settings.commandsPerTick.toNat + 1)
      (s.bridge.submit request).2 := by
  have hnow : Stage.Onward allowed id (s.submit request) 0
      ⟨(s.bridge.submit request).2, .idle, (s.submit request).ledger⟩ := by
    rw [← hplace]
    exact .now
  refine timely_of_onward (fun k c l hk hon => ?_) (fun c l hon => ?_) hnow (Nat.zero_add _)
  · exact poll_of_open (hon.open_of_lt hstart hs hsubmit hk)
  · obtain ⟨outcome, hticket⟩ := hon.ready_of_le hstart hs hsubmit (Nat.le_refl _) rfl
    exact ⟨outcome, poll_of_delivered hticket⟩

end Bridge

namespace Reachable

variable [Machine σ] {allowed : (σ → σ) → Prop} {machine : σ} {settings : Settings}
  {b₀ : Bridge σ} {s : Stage σ} {request : Request} {id : Nat}

/-- A command that is accepted while `d` others wait has its outcome in tick `d / B + 1` from then
on, for a budget of `B` commands in a tick. As long as fewer ticks have begun there is nothing to
take, and from the end of that tick on there is, whatever else is submitted, run, paused or changed
in the meantime, and whether steps fail or panics cut ticks short.

So `Bridge.execute` comes to its answer in exactly that tick, if no panic escapes from it or from
one of the ticks before; otherwise it ends with the first such panic. -/
theorem bounded_latency (hstart : Bridge.start machine settings = .ok b₀)
    (h : Reachable allowed b₀ s) (hsubmit : (s.bridge.submit request).1 = .ok id) :
    let b := (s.bridge.submit request).2
    let last := s.bridge.intake.queue.length / settings.commandsPerTick.toNat + 1
    (∀ k t, Stage.Onward allowed id (s.submit request) k t →
      (k < last → (t.bridge.intake.queue.HasTicket id fun x => x.isReady = false) ∧
        t.bridge.poll id = (none, t.bridge)) ∧
      (last ≤ k → t.place = .idle →
        (t.bridge.intake.queue.HasTicket id fun x => x.isReady = true) ∧
          ∃ outcome, (t.bridge.poll id).1 = some outcome)) ∧
    (s.place = .idle →
      (∀ c, (Bridge.ticks last).run b = (.ok (), c) → ∃ outcome,
        (c.poll id).1 = some outcome ∧ Bridge.Awaits id last b (.ok outcome, (c.poll id).2) ∧
          (Bridge.execute request).run s.bridge = (.ok outcome, (c.poll id).2)) ∧
      (∀ p c, (Bridge.ticks last).run b = (.error p, c) →
        (∃ n ≤ last, Bridge.Awaits id n b (.error p, c)) ∧
          (Bridge.execute request).run s.bridge = (.error p, c))) := by
  intro b last
  refine ⟨fun k t hon => ⟨fun hk => ?_, fun hk hplace => ?_⟩, fun hplace => ?_⟩
  · have hopen := hon.open_of_lt hstart h hsubmit hk
    exact ⟨hopen.imp fun _ ht => ht.isReady_eq, Bridge.poll_of_open hopen⟩
  · obtain ⟨outcome, hticket⟩ := hon.ready_of_le hstart h hsubmit hk hplace
    exact ⟨hticket.imp fun _ ht => ht.1.isReady_eq ht.2, outcome, Bridge.poll_of_delivered hticket⟩
  · have htimely : Bridge.Timely id last b := Bridge.timely_of_submit hstart h hsubmit hplace
    -- The bound that `Bridge.execute` uses is no constraint.
    have hbound : last ≤ b.intake.queue.length := by
      obtain ⟨-, -, hqueue⟩ := Bridge.submit_eq_ok hsubmit
      rw [Queue.length, hqueue, List.length_append]
      exact Nat.succ_le_succ (Nat.div_le_self _ _)
    refine ⟨fun c hc => ?_, fun p c hc => ?_⟩
    · obtain ⟨outcome, hpoll, hawaits⟩ := htimely.answers c hc
      exact ⟨outcome, hpoll, hawaits, Bridge.execute_of_awaits hsubmit hawaits hbound⟩
    · obtain ⟨n, hle, hawaits⟩ := htimely.panics p c hc
      exact ⟨⟨n, hle, hawaits⟩,
        Bridge.execute_of_awaits hsubmit hawaits (Nat.le_trans hle hbound)⟩

/-- With a budget of two, a third command has its outcome in the second tick. -/
theorem third_of_budget_two :
    let two := (((Bridge.sized (Scripted.fresh true false Faults.none) 8 2).submit .pause).2.submit
      .status).2
    let three := (two.submit .pause).2
    (Bridge.tick three).2.poll 2 = (none, (Bridge.tick three).2) ∧
      ((Bridge.execute .pause).run two).1 = .ok (.ok (.control false true)) := by
  intro two three
  have hrun : Bridge.Run (fun _ => False)
      (Bridge.sized (Scripted.fresh true false Faults.none) 8 2) _ two :=
    (Bridge.Run.opened.submit .pause).submit .status
  have hsubmit : (two.submit .pause).1 = .ok 2 := rfl
  obtain ⟨hdue, hexecute⟩ := hrun.reachable.bounded_latency
    (Bridge.start_sized _ (by decide) (by decide)) hsubmit
  have hlast : two.intake.queue.length / (Settings.sized 8 2).commandsPerTick.toNat + 1 = 2 := by
    decide
  dsimp only at hdue hexecute
  rw [hlast] at hdue hexecute
  refine ⟨((hdue 1 _ (Stage.Onward.tick .now)).1 (by decide)).2, ?_⟩
  have hticks : (Bridge.ticks 2).run three = (.ok (), ((Bridge.ticks 2).run three).2) := rfl
  obtain ⟨outcome, hpoll, -, hanswer⟩ := (hexecute rfl).1 _ hticks
  rw [hanswer]
  exact congrArg Except.ok (Option.some.inj hpoll).symm

end Reachable

end CommandBridge
