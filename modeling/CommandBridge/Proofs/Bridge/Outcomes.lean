import CommandBridge.Proofs.Bridge.Agreement
import CommandBridge.Proofs.Bridge.Courses
import CommandBridge.Proofs.Bridge.Loop

/-!
# Every accepted command ends exactly once

A command that the queue has accepted is always in one of four places: it waits, a tick has it in
hand, it was run, or it was cancelled. `Ledger.Balanced` says so, and that the tickets agree: a
ticket is open as long as its command waits or is in hand, and afterwards it holds the outcome of
the one run, or of the cancellation. Since numbers are stamped in order, no command is in two of
the places.

The invariant does not speak of threads. Each move of a stage either leaves queue and ledger alone
or does one of the things for which there is a lemma here (`Balanced.accept`, `Balanced.drain`,
`Balanced.run`, `Balanced.use`, `Balanced.close`), so it holds in every order of moves
(`Reachable.balanced`).

That the outcome of a command that was run is the one of its handler, and that no handler is run
otherwise, is a matter of the session and not of the queue (`Reachable.made`, `Reachable.course`).
`Stage.EndsOnce` puts both halves together. It holds of every stage, and so of the bridges that
their owners tick and of those with a loop of their own, whichever way they end
(`commands_end_once`).
-/

namespace CommandBridge

namespace Ledger

/-- The ledger, the commands in hand and the queue agree about every accepted command. -/
structure Balanced (l : Ledger) (limits : Limits) (inHand : List Command) (q : Queue) : Prop where
  /-- Every accepted command is in one place, and commands are run in order. -/
  accepted_eq : l.accepted =
    l.executed.map (·.command) ++ inHand ++ (l.cancelled ++ q.waiting)
  /-- Accepted commands are numbered in order, and each has a ticket. -/
  ids_eq : l.accepted.map (·.id) = List.range q.tickets.size
  /-- Only requests that pass admission are accepted. -/
  admitted : ∀ c ∈ l.accepted, limits.check c.request = .ok ()
  /-- A command that was run has its outcome delivered. -/
  executed : ∀ x ∈ l.executed, q.HasTicket x.command.id (Ticket.Delivered x.outcome)
  /-- A command that was cancelled has its cancellation delivered. -/
  cancelled : ∀ c ∈ l.cancelled, q.HasTicket c.id (Ticket.Delivered (.error .shutdown))
  /-- All other commands have nothing delivered. -/
  owed : ∀ c ∈ inHand ++ q.waiting, q.HasTicket c.id Ticket.Open
  /-- Nothing is cancelled before the queue is closed. -/
  cancelled_eq : q.closed = false → l.cancelled = []
  /-- Nothing is left when the queue is closed. -/
  closed_eq : q.closed = true → inHand = [] ∧ q.waiting = []
  /-- The queue is closed once somebody has closed it. -/
  closed_of_reported : l.reported ≠ [] → q.closed = true
  /-- What the closings have reported adds up. -/
  totalReported_eq : l.totalReported = l.cancelled.length

namespace Balanced

variable {l : Ledger} {limits : Limits} {inHand : List Command} {q : Queue}

theorem empty (limits : Limits) (capacity : Nat) :
    Balanced .empty limits [] (Queue.empty capacity) where
  accepted_eq := rfl
  ids_eq := rfl
  admitted _ hc := absurd hc List.not_mem_nil
  executed _ hx := absurd hx List.not_mem_nil
  cancelled _ hc := absurd hc List.not_mem_nil
  owed _ hc := absurd hc List.not_mem_nil
  cancelled_eq _ := rfl
  closed_eq := by simp [Queue.empty]
  closed_of_reported h := absurd rfl h
  totalReported_eq := rfl

/-- No two accepted commands have the same number. -/
theorem nodup_ids (h : Balanced l limits inHand q) : (l.accepted.map (·.id)).Nodup := by
  rw [h.ids_eq]
  exact List.nodup_range

/-- The number of an accepted command is not that of a command accepted before or after it. -/
theorem id_ne (h : Balanced l limits inHand q) {before after : List Command} {c d : Command}
    (hsplit : l.accepted = before ++ c :: after) (hd : d ∈ before ++ after) : c.id ≠ d.id := by
  have hnodup := h.nodup_ids
  rw [hsplit, (List.perm_middle.map _).nodup_iff, List.map_cons, List.nodup_cons] at hnodup
  intro heq
  exact hnodup.1 (heq ▸ List.mem_map_of_mem hd)

/-- A command is accepted. -/
theorem accept (h : Balanced l limits inHand q) {request : Request} (tick : Tick)
    (hopen : q.closed = false) (hvalid : limits.check request = .ok ()) :
    Balanced (l.submitted request tick (.ok q.tickets.size)) limits inHand
      { q with
        waiting := q.waiting ++ [⟨q.tickets.size, request, tick⟩]
        tickets := q.tickets.push (Ticket.issue q.tickets.size) } where
  accepted_eq := by
    rw [submitted, h.accepted_eq]
    simp only [List.append_assoc]
  ids_eq := by
    rw [submitted, List.map_append, h.ids_eq, Array.size_push, List.range_succ]
    rfl
  admitted c hc := by
    rcases List.mem_append.mp hc with hc | hc
    · exact h.admitted c hc
    · rw [List.mem_singleton.mp hc]
      exact hvalid
  executed x hx := (h.executed x hx).push _
  cancelled c hc := (h.cancelled c hc).push _
  owed c hc := by
    rw [← List.append_assoc] at hc
    rcases List.mem_append.mp hc with hc | hc
    · exact (h.owed c hc).push _
    · rw [List.mem_singleton.mp hc]
      exact Queue.hasTicket_push_size _ (Ticket.open_issue _)
  cancelled_eq := h.cancelled_eq
  closed_eq hclosed := by
    have hcontra : q.closed = true := hclosed
    rw [hopen] at hcontra
    cases hcontra
  closed_of_reported := h.closed_of_reported
  totalReported_eq := h.totalReported_eq

/-- A tick takes commands out of the queue. -/
theorem drain (h : Balanced l limits [] q) (max : Nat) :
    Balanced l limits (q.drain max).1 (q.drain max).2 where
  accepted_eq := by
    rw [h.accepted_eq, ← q.drain_append max]
    cases hclosed : q.closed with
    | true =>
      have hwaiting : q.waiting = [] := (h.closed_eq hclosed).2
      simp [Queue.drain, hwaiting]
    | false => simp [h.cancelled_eq hclosed]
  ids_eq := h.ids_eq
  admitted := h.admitted
  executed x hx := (h.executed x hx).congr rfl
  cancelled c hc := (h.cancelled c hc).congr rfl
  owed c hc := by
    rw [q.drain_append max] at hc
    exact (h.owed c hc).congr rfl
  cancelled_eq := h.cancelled_eq
  closed_eq hclosed := by
    have hwaiting : q.waiting = [] := (h.closed_eq hclosed).2
    simp [Queue.drain, hwaiting]
  closed_of_reported := h.closed_of_reported
  totalReported_eq := h.totalReported_eq

/-- A command in hand is run. Its ticket was open, so this is the one delivery to it. -/
theorem run {command : Command} {rest : List Command}
    (h : Balanced l limits (command :: rest) q) (outcome : Outcome Reply) :
    Balanced (l.ran [⟨command, outcome⟩]) limits rest (q.complete command.id outcome) := by
  have hsplit : l.accepted =
      l.executed.map (·.command) ++ command :: (rest ++ (l.cancelled ++ q.waiting)) := by
    rw [h.accepted_eq, List.append_assoc, List.cons_append]
  -- The delivery goes to none of the other accepted commands.
  have hne : ∀ d ∈ l.executed.map (·.command) ++ (rest ++ (l.cancelled ++ q.waiting)),
      command.id ≠ d.id := fun d hd => h.id_ne hsplit hd
  simp only [List.mem_append] at hne
  refine ⟨?_, ?_, h.admitted, ?_, ?_, ?_, h.cancelled_eq, ?_, h.closed_of_reported,
    h.totalReported_eq⟩
  · rw [ran, hsplit]
    simp
  · rw [ran, h.ids_eq, Queue.complete, Queue.modifyTicket, Array.size_modify]
  · intro x hx
    rcases List.mem_append.mp hx with hx | hx
    · refine (h.executed x hx).complete_of_ne ?_ outcome
      exact hne _ (.inl (List.mem_map_of_mem hx))
    · rw [List.mem_singleton.mp hx]
      exact (h.owed command List.mem_cons_self).complete_self outcome
  · intro c hc
    exact (h.cancelled c hc).complete_of_ne (hne c (.inr (.inr (.inl hc)))) outcome
  · intro c hc
    refine (h.owed c (List.mem_cons_of_mem _ hc)).complete_of_ne ?_ outcome
    rcases List.mem_append.mp hc with hc | hc
    · exact hne c (.inr (.inl hc))
    · exact hne c (.inr (.inr (.inr hc)))
  · intro hclosed
    cases (h.closed_eq hclosed).1

/-- The future of some command is used. -/
theorem use (h : Balanced l limits inHand q) (id : Nat) (use : FutureUse) :
    Balanced l limits inHand (q.modifyTicket id use.apply) where
  accepted_eq := h.accepted_eq
  ids_eq := by rw [h.ids_eq, Queue.modifyTicket, Array.size_modify]
  admitted := h.admitted
  executed x hx := (h.executed x hx).modify (fun _ ht => ht.use use) id
  cancelled c hc := (h.cancelled c hc).modify (fun _ ht => ht.use use) id
  owed c hc := (h.owed c hc).modify (fun _ ht => ht.use use) id
  cancelled_eq := h.cancelled_eq
  closed_eq := h.closed_eq
  closed_of_reported := h.closed_of_reported
  totalReported_eq := h.totalReported_eq

/-- The queue is closed, and what waits is cancelled. -/
theorem close (h : Balanced l limits [] q) :
    Balanced (l.closed q.waiting q.close.1) limits [] q.close.2 := by
  obtain ⟨hclosed, hwaiting, hsize⟩ := q.closed_close
  have haccepted : l.accepted = l.executed.map (·.command) ++ (l.cancelled ++ q.waiting) := by
    rw [h.accepted_eq, List.append_nil]
  have hids : ((l.executed.map (·.command) ++ l.cancelled).map (·.id) ++
      q.waiting.map (·.id)).Nodup := by
    have hnodup := h.nodup_ids
    rwa [haccepted, ← List.append_assoc, List.map_append] at hnodup
  obtain ⟨-, hnodup, hdisjoint⟩ := List.nodup_append.mp hids
  -- Commands that were run or cancelled before do not wait any more.
  have hold : ∀ c ∈ l.executed.map (·.command) ++ l.cancelled, c.id ∉ q.waiting.map (·.id) :=
    fun c hc hid => hdisjoint _ (List.mem_map_of_mem hc) _ hid rfl
  refine ⟨?_, ?_, h.admitted, ?_, ?_, ?_, ?_, ?_, fun _ => hclosed, ?_⟩
  · rw [closed, haccepted, hwaiting]
    simp
  · rw [closed, h.ids_eq, hsize]
  · intro x hx
    exact (h.executed x hx).close_of_ne
      (hold _ (List.mem_append_left _ (List.mem_map_of_mem hx)))
  · intro c hc
    rcases List.mem_append.mp hc with hc | hc
    · exact (h.cancelled c hc).close_of_ne (hold c (List.mem_append_right _ hc))
    · exact (h.owed c hc).close_of_waiting (List.mem_map_of_mem hc) hnodup
  · intro c hc
    rw [hwaiting] at hc
    exact absurd hc List.not_mem_nil
  · intro hopen
    rw [hclosed] at hopen
    cases hopen
  · exact fun _ => ⟨rfl, hwaiting⟩
  · have hcount : q.close.1 = q.waiting.length := rfl
    rw [totalReported_closed, h.totalReported_eq, hcount, closed, List.length_append]

end Balanced

end Ledger

/-! ### Along a run -/

/-- A submission is refused without a trace in the queue, or it is accepted. -/
theorem Intake.submit_cases (i : Intake) (request : Request) :
    (∃ e, (i.submit request).1 = .error e ∧ (i.submit request).2.queue = i.queue) ∨
      (i.limits.check request = .ok () ∧ i.queue.closed = false ∧
        (i.submit request).1 = .ok i.queue.tickets.size ∧
        (i.submit request).2.queue = { i.queue with
          waiting := i.queue.waiting ++ [⟨i.queue.tickets.size, request, i.tick⟩]
          tickets := i.queue.tickets.push (Ticket.issue i.queue.tickets.size) }) := by
  rw [submit]
  cases hcheck : i.limits.check request with
  | error e => exact .inl ⟨e, rfl, rfl⟩
  | ok _ =>
    cases hsubmit : i.queue.submit request i.tick with
    | error e =>
      cases e with
      | queueFull => exact .inl ⟨_, rfl, rfl⟩
      | _ => exact .inl ⟨_, rfl, rfl⟩
    | ok r =>
      obtain ⟨id, q⟩ := r
      obtain ⟨hopen, -, rfl, rfl⟩ := Queue.submit_eq_ok.mp hsubmit
      exact .inr ⟨rfl, hopen, rfl, rfl⟩

/-- After closing, a request that passes admission comes too late, and nothing changes. -/
theorem Intake.submit_of_closed {i : Intake} (hclosed : i.queue.closed = true) {request : Request}
    (hvalid : i.limits.check request = .ok ()) : i.submit request = (.error .shutdown, i) := by
  rw [submit, hvalid, Queue.submit_of_closed hclosed]

variable {σ : Type}

/-- Ledger, commands in hand and queue of a stage agree. -/
def Stage.Balanced (s : Stage σ) : Prop :=
  s.ledger.Balanced s.bridge.intake.limits s.place.inHand s.bridge.intake.queue

theorem Stage.Balanced.submit {s : Stage σ} (h : s.Balanced) (request : Request) :
    (s.submit request).Balanced := by
  have hlimits : (s.submit request).bridge.intake.limits = s.bridge.intake.limits :=
    s.bridge.intake.limits_submit request
  rw [Stage.Balanced, hlimits]
  rcases s.bridge.intake.submit_cases request with
    ⟨e, hanswer, hqueue⟩ | ⟨hvalid, hopen, hanswer, hqueue⟩
  · have hledger : (s.submit request).ledger = s.ledger := by
      rw [Stage.submit, Bridge.submit, hanswer]
      rfl
    have hqueue' : (s.submit request).bridge.intake.queue = s.bridge.intake.queue := hqueue
    rw [hledger, hqueue']
    exact h
  · have haccept := Ledger.Balanced.accept h s.bridge.intake.tick hopen hvalid
    rw [← hqueue, ← hanswer] at haccept
    exact haccept

variable [Machine σ]

theorem Bridge.queue_closeTick (o : OpenTick) (b : Bridge σ) :
    (Bridge.closeTick o b).2.intake.queue = b.intake.queue := by
  rw [Bridge.closeTick]
  cases o.frame <;> rfl

/-- The handler of an admitted request does not answer what is answered for commands that are
cancelled or let go of. -/
theorem Session.outcome_ne_of_admitted {limits : Limits} {s : Session σ} (hfits : s.Fits limits)
    {request : Request} (hvalid : limits.check request = .ok ()) :
    outcomeOf ((handle request).run s).1 ≠ .error .shutdown ∧
      outcomeOf ((handle request).run s).1 ≠ .error (.internal .unresolved) := by
  have hnot : ∀ e, outcomeOf ((handle request).run s).1 = .error e →
      e ≠ .shutdown ∧ e ≠ .internal .unresolved := by
    intro e he
    rcases handle_error_of_admitted hfits hvalid he with
      rfl | ⟨p, rfl⟩ | ⟨why, rfl⟩ | ⟨m, start, data, a, -, -, rfl, -⟩
    · exact ⟨by simp, by simp⟩
    · exact ⟨by simp, by simp⟩
    · cases why <;> simp [CommandError.ofMachine]
    · exact ⟨by simp, by simp⟩
  exact ⟨fun he => (hnot _ he).1 rfl, fun he => (hnot _ he).2 rfl⟩

namespace Stage

theorem Balanced.proceed {s : Stage σ} (h : s.Balanced) : s.proceed.Balanced := by
  rw [Stage.Balanced, s.limits_proceed]
  obtain ⟨b, place, l⟩ := s
  match place with
  | .idle => exact Ledger.Balanced.drain h b.budget
  | .running (command :: rest) outcomes deferred => exact Ledger.Balanced.run h _
  | .running [] outcomes deferred =>
    simp only [Stage.proceed]
    split
    · rw [Bridge.queue_closeTick]
      exact h
    · split
      · exact h
      · exact h
  | .stepping o =>
    simp only [Stage.proceed]
    rw [Bridge.queue_closeTick]
    exact h

end Stage

namespace Reachable

variable {allowed : (σ → σ) → Prop} {machine : σ} {settings : Settings} {b₀ : Bridge σ}
  {s : Stage σ}

/-- In every stage the account of the commands balances. -/
theorem balanced (hstart : Bridge.start machine settings = .ok b₀) (h : Reachable allowed b₀ s) :
    s.Balanced := by
  induction h with
  | opened =>
    obtain ⟨regions, -, -, rfl⟩ := Bridge.start_eq_ok.mp hstart
    exact .empty _ _
  | submit request _ ih => exact ih.submit request
  | useFuture id use _ ih => exact Ledger.Balanced.use ih id use
  | proceed _ ih => exact ih.proceed
  | @close s _ hidle ih =>
    rw [Stage.Balanced, hidle] at ih
    rw [Stage.Balanced, Stage.close, hidle]
    exact Ledger.Balanced.close ih
  | unattended _ ih => exact ih
  | outside change _ _ ih => exact ih

/-- No command that was run has the outcome of one that was cancelled or let go of. -/
theorem outcome_ne (hstart : Bridge.start machine settings = .ok b₀) (h : Reachable allowed b₀ s) :
    ∀ x ∈ s.ledger.executed,
      x.outcome ≠ .error .shutdown ∧ x.outcome ≠ .error (.internal .unresolved) := by
  intro x hx
  obtain ⟨before, after, hsplit⟩ := List.append_of_mem hx
  obtain ⟨t, ht, -, hmakes, -⟩ := h.made hsplit
  obtain ⟨rest, hinHand⟩ := hmakes.inHand_eq
  have hbalanced := ht.balanced hstart
  -- A command in hand was accepted, so its request has passed admission.
  have haccepted : x.command ∈ t.ledger.accepted := by
    rw [hbalanced.accepted_eq, hinHand]
    simp
  rw [hmakes.outcome_eq]
  exact Session.outcome_ne_of_admitted (ht.fits hstart) (hbalanced.admitted _ haccepted)

end Reachable

/-! ### Every command ends once -/

/-- What has become of the accepted commands, and what their handlers have made of the session. -/
structure Stage.EndsOnce (allowed : (σ → σ) → Prop) (b₀ : Bridge σ) (s : Stage σ) : Prop where
  /-- Each accepted command was run, is in hand, was cancelled or waits. -/
  accepted_eq : s.ledger.accepted = s.ledger.executed.map (·.command) ++ s.place.inHand ++
    (s.ledger.cancelled ++ s.bridge.intake.queue.waiting)
  /-- No two have the same number, so each is in one of these places only. -/
  ids_eq : s.ledger.accepted.map (·.id) = List.range s.bridge.intake.queue.tickets.size
  /-- The handler of each command that was run has run once, in this order, and no other has. -/
  course : Session.Course allowed b₀.session s.ledger.executed s.bridge.session
  /-- Each execution was made in a stage that found the ticket open and the earlier executions made:
  its outcome is that of the handler, whose session is the one that went on from there. -/
  made : ∀ before x after, s.ledger.executed = before ++ x :: after →
    ∃ t, Reachable allowed b₀ t ∧ t.ledger.executed = before ∧
      t.bridge.intake.queue.HasTicket x.command.id Ticket.Open ∧ t.Makes x ∧
      Session.Course allowed t.proceed.bridge.session after s.bridge.session
  /-- The outcome was delivered, and it is neither that of a cancelled command nor that of one that
  was let go of. -/
  executed : ∀ x ∈ s.ledger.executed,
    s.bridge.intake.queue.HasTicket x.command.id (Ticket.Delivered x.outcome) ∧
      x.outcome ≠ .error .shutdown ∧ x.outcome ≠ .error (.internal .unresolved)
  /-- What was delivered to a cancelled command is the cancellation. -/
  cancelled : ∀ c ∈ s.ledger.cancelled,
    s.bridge.intake.queue.HasTicket c.id (Ticket.Delivered (.error .shutdown))
  /-- Nothing was delivered to the others yet. -/
  owed : ∀ c ∈ s.place.inHand ++ s.bridge.intake.queue.waiting,
    s.bridge.intake.queue.HasTicket c.id Ticket.Open
  /-- The closings have reported as many commands as were cancelled. -/
  totalReported_eq : s.ledger.totalReported = s.ledger.cancelled.length
  /-- After a closing nothing is left, and requests that pass admission come too late. -/
  closed : s.ledger.reported ≠ [] →
    s.place.inHand = [] ∧ s.bridge.intake.queue.waiting = [] ∧
      ∀ request, s.bridge.intake.limits.check request = .ok () →
        s.bridge.submit request = (.error .shutdown, s.bridge)

theorem Reachable.endsOnce {allowed : (σ → σ) → Prop} {machine : σ} {settings : Settings}
    {b₀ : Bridge σ} {s : Stage σ} (hstart : Bridge.start machine settings = .ok b₀)
    (h : Reachable allowed b₀ s) : s.EndsOnce allowed b₀ := by
  have hbalanced := h.balanced hstart
  refine ⟨hbalanced.accepted_eq, hbalanced.ids_eq, h.course, ?_, ?_, hbalanced.cancelled,
    hbalanced.owed, hbalanced.totalReported_eq, ?_⟩
  · intro before x after hsplit
    obtain ⟨t, ht, hbefore, hmakes, hcourse⟩ := h.made hsplit
    obtain ⟨rest, hinHand⟩ := hmakes.inHand_eq
    refine ⟨t, ht, hbefore, (ht.balanced hstart).owed x.command ?_, hmakes, hcourse⟩
    rw [hinHand]
    exact List.mem_cons_self
  · exact fun x hx => ⟨hbalanced.executed x hx, h.outcome_ne hstart x hx⟩
  · intro hreported
    have hclosed := hbalanced.closed_of_reported hreported
    obtain ⟨hinHand, hwaiting⟩ := hbalanced.closed_eq hclosed
    refine ⟨hinHand, hwaiting, fun request hvalid => ?_⟩
    rw [Bridge.submit, Intake.submit_of_closed hclosed hvalid]

/-- In every stage that a bridge reaches, each accepted command ends once: by the one run of its
handler, or by being cancelled without one. The same goes for a bridge that its owner ticks and
closes, and for one with a loop of its own. There the commands are those whose submissions were
answered with a number, the shutdowns report as many as were cancelled, and after a shutdown each
of them was run or cancelled. -/
theorem commands_end_once {machine : σ} {settings : Settings} {b₀ : Bridge σ}
    (hstart : Bridge.start machine settings = .ok b₀) :
    (∀ allowed s, Reachable allowed b₀ s → s.EndsOnce allowed b₀) ∧
    (∀ allowed l b, Bridge.Run allowed b₀ l b → Stage.EndsOnce allowed b₀ ⟨b, .idle, l⟩) ∧
    ∀ accepted reported c, Clocked.Log machine settings accepted reported c →
      ∃ l : Ledger, l.accepted = accepted ∧ l.cancelled.length = reported.foldl (· + ·) 0 ∧
        (c.stage l).EndsOnce (fun _ => False) b₀ ∧
        (reported ≠ [] → accepted = l.executed.map (·.command) ++ l.cancelled ∧
          ∀ request, c.bridge.intake.limits.check request = .ok () →
            c.submit request = (.error .shutdown, c)) := by
  refine ⟨fun _ _ h => h.endsOnce hstart, fun _ _ _ h => h.reachable.endsOnce hstart, ?_⟩
  intro accepted reported c hlog
  obtain ⟨b, l, hb, hreach, haccepted, htotal, hreported⟩ := hlog.reachable
  obtain rfl : b = b₀ := Except.ok.inj (hb.symm.trans hstart)
  have hends := hreach.endsOnce hstart
  refine ⟨l, haccepted, hends.totalReported_eq.symm.trans htotal, hends, fun hne => ?_⟩
  obtain ⟨hinHand, hwaiting, hlate⟩ := hends.closed (mt hreported.mp hne)
  constructor
  · have hall := hends.accepted_eq
    rw [hinHand, hwaiting, List.append_nil, List.append_nil] at hall
    exact haccepted.symm.trans hall
  · exact fun request hvalid => Clocked.submit_of_error (hlate request hvalid)

/-- With one command to a tick, the first of two commands is run and the second is cancelled, by an
owner who closes the bridge after a tick and by one who shuts down a loop inside its second step. -/
theorem resume_runs_pause_cancelled :
    let machine := Scripted.fresh true false Faults.none
    let b₀ := Bridge.sized machine 4 1
    let b := (Bridge.tick ((b₀.submit .resume).2.submit .pause).2).2.close.2
    let x : Execution := ⟨⟨0, .resume, .zero⟩, .ok (.control false false)⟩
    Bridge.start machine (.sized 4 1) = .ok b₀ ∧
      b.intake.queue.HasTicket 0 (Ticket.Delivered x.outcome) ∧
      b.intake.queue.HasTicket 1 (Ticket.Delivered (.error .shutdown)) ∧
      Session.Course (fun _ => False) b₀.session [x] b.session ∧
      ∃ c l, Clocked.Log machine (.sized 4 1) [x.command, ⟨1, .pause, .zero⟩] [1] c ∧
        (c.stage l).EndsOnce (fun _ => False) b₀ ∧ l.executed.map (·.command) = [x.command] ∧
        l.cancelled = [⟨1, .pause, .zero⟩] := by
  intro machine b₀ b x
  have hstart : Bridge.start machine (.sized 4 1) = .ok b₀ :=
    Bridge.start_sized machine (by decide) (by decide)
  obtain ⟨-, howner, hloop⟩ := commands_end_once hstart
  have hends := howner (fun _ => False) _ _
    (((Bridge.Run.opened.submit .resume).submit .pause).tick).close
  refine ⟨hstart, (hends.executed x (.head _)).1, hends.cancelled ⟨1, .pause, .zero⟩ (.head _),
    hends.course, ?_⟩
  -- Both commands are accepted in the first step, and the second tick has room for one.
  let c := Clocked.follow (.opened b₀ (Settings.sized 4 1).tickBudget (Settings.sized 4 1).timeout)
  have hresume : (c.submit .resume).1 = .ok 0 := rfl
  have hpause : ((c.submit .resume).2.submit .pause).1 = .ok 1 := rfl
  have hcancelled :
      ((c.submit .resume).2.submit .pause).2.advance.shutdown.1.cancelled = 1 := by decide +kernel
  have hlog := (Clocked.Log.start (Clocked.start_eq_ok.mpr ⟨b₀, hstart, rfl⟩) |>.submit hresume
    |>.submit hpause).advance.shutdown
  rw [hcancelled] at hlog
  obtain ⟨l, -, hlength, hends, hdone⟩ := hloop _ _ _ hlog
  -- So one of the two is among the executions and one among the cancelled commands.
  obtain ⟨hexecuted, hlast⟩ := List.append_inj' (hdone (List.cons_ne_nil _ _)).1.symm hlength
  exact ⟨_, l, hlog, hends, hexecuted, hlast⟩

end CommandBridge
