import CommandBridge.Proofs.Queue.Deliveries

/-!
# What passes through a queue

A queue that is submitted to, drained and closed in any order neither loses nor invents a command,
and keeps them in order: the batches drained so far, the commands cancelled by closing and those
that still wait are together the accepted ones.

`Queue.Trace` is a queue with an account of what has passed through it, and `Trace.apply` performs
one operation and notes it down. `Trace.Sound` is the invariant, with one lemma for each operation.
-/

namespace CommandBridge

/-- What the two sides of a queue may do. -/
inductive QueueOp
  | submit (request : Request) (submittedAt : Tick)
  | drain (max : Nat)
  | close

namespace Queue

/-- A queue with an account of what has passed through it. -/
structure Trace where
  queue : Queue
  /-- The accepted commands as they were submitted, with the numbers that were returned. -/
  accepted : List Command
  /-- What each draining has returned, in order. -/
  batches : List (List Command)
  /-- The commands that were waiting when the queue was closed. -/
  cancelled : List Command
  /-- What each closing has returned, in order. -/
  closings : List Nat

theorem capacity_close (q : Queue) : q.close.2.capacity = q.capacity := by
  have hfoldl : ∀ (ids : List Nat) (q : Queue),
      (ids.foldl (fun q id => q.complete id (.error .shutdown)) q).capacity = q.capacity := by
    intro ids
    induction ids with
    | nil => exact fun _ => rfl
    | cons id rest ih => exact fun q => ih _
  rw [close_snd]
  exact hfoldl _ _

namespace Trace

/-- A new queue. -/
def opened (q : Queue) : Trace := ⟨q, [], [], [], []⟩

/-- Performs one operation. -/
def apply (t : Trace) : QueueOp → Trace
  | .submit request submittedAt =>
    match t.queue.submit request submittedAt with
    | .ok (id, queue) =>
      { t with queue := queue, accepted := t.accepted ++ [⟨id, request, submittedAt⟩] }
    | .error _ => t
  | .drain max =>
    let r := t.queue.drain max
    { t with queue := r.2, batches := t.batches ++ [r.1] }
  | .close =>
    let r := t.queue.close
    { t with
      queue := r.2
      cancelled := t.cancelled ++ t.queue.waiting
      closings := t.closings ++ [r.1] }

/-- Queue and account agree. -/
structure Sound (capacity : Nat) (t : Trace) : Prop where
  capacity_eq : t.queue.capacity = capacity
  length_le : t.queue.length ≤ capacity
  accepted_eq : t.accepted = t.batches.flatten ++ t.cancelled ++ t.queue.waiting
  ids_eq : t.accepted.map (·.id) = List.range t.queue.tickets.size
  /-- Nothing was delivered to a command that waits. -/
  owed : ∀ c ∈ t.queue.waiting, t.queue.HasTicket c.id Ticket.Open
  cancelled : ∀ c ∈ t.cancelled, t.queue.HasTicket c.id (Ticket.Delivered (.error .shutdown))
  /-- Before the first closing nothing is cancelled. -/
  open_eq : t.queue.closed = false → t.cancelled = [] ∧ t.closings = []
  /-- Afterwards nothing waits, and there is nothing left to cancel. -/
  closed_eq : t.queue.closed = true → t.queue.waiting = [] ∧
    ∃ n, t.closings = t.cancelled.length :: List.replicate n 0

namespace Sound

variable {capacity : Nat} {t : Trace}

theorem opened (capacity : Nat) : Sound capacity (.opened (empty capacity)) where
  capacity_eq := rfl
  length_le := Nat.zero_le _
  accepted_eq := rfl
  ids_eq := rfl
  owed := by simp [Trace.opened, empty]
  cancelled := by simp [Trace.opened]
  open_eq _ := ⟨rfl, rfl⟩
  closed_eq := by simp [Trace.opened, empty]

theorem submit (h : Sound capacity t) (request : Request) (submittedAt : Tick) :
    Sound capacity (t.apply (.submit request submittedAt)) := by
  rw [apply]
  cases hsubmit : t.queue.submit request submittedAt with
  | error e => exact h
  | ok r =>
    obtain ⟨id, q⟩ := r
    obtain ⟨hopen, hroom, rfl, rfl⟩ := submit_eq_ok.mp hsubmit
    obtain ⟨hcapacity, hlength, haccepted, hids, howed, hcancelled, hunclosed, hclosed⟩ := h
    refine ⟨hcapacity, ?_, ?_, ?_, ?_, ?_, hunclosed, ?_⟩
    · simp only [length, List.length_append, List.length_singleton] at hroom ⊢
      omega
    · simp [haccepted]
    · simp [hids, List.range_succ]
    · intro c hc
      rcases List.mem_append.mp hc with hc | hc
      · exact (howed c hc).push _
      · rw [List.mem_singleton.mp hc]
        exact hasTicket_push_size _ (Ticket.open_issue _)
    · exact fun c hc => (hcancelled c hc).push _
    · simp [hopen]

theorem drain (h : Sound capacity t) (max : Nat) : Sound capacity (t.apply (.drain max)) := by
  obtain ⟨hcapacity, hlength, haccepted, hids, howed, hcancelled, hunclosed, hclosed⟩ := h
  refine ⟨hcapacity, ?_, ?_, hids, ?_, ?_, hunclosed, ?_⟩
  · simp only [apply, Queue.drain, length, List.length_drop] at hlength ⊢
    omega
  · -- A queue with cancelled commands is closed, and has none to drain.
    have hcommute :
        (t.queue.drain max).1 ++ t.cancelled = t.cancelled ++ (t.queue.drain max).1 := by
      cases hcase : t.queue.closed with
      | true => simp [Queue.drain, (hclosed hcase).1]
      | false => simp [(hunclosed hcase).1]
    calc t.accepted
        = t.batches.flatten ++ t.cancelled ++
            ((t.queue.drain max).1 ++ (t.queue.drain max).2.waiting) := by
          rw [haccepted, t.queue.drain_append]
      _ = t.batches.flatten ++ (t.cancelled ++ (t.queue.drain max).1) ++
            (t.queue.drain max).2.waiting := by simp
      _ = t.batches.flatten ++ ((t.queue.drain max).1 ++ t.cancelled) ++
            (t.queue.drain max).2.waiting := by rw [hcommute]
      _ = (t.batches ++ [(t.queue.drain max).1]).flatten ++ t.cancelled ++
            (t.queue.drain max).2.waiting := by simp
  · exact fun c hc => (howed c (List.mem_of_mem_drop hc)).congr rfl
  · exact fun c hc => (hcancelled c hc).congr rfl
  · intro hcase
    obtain ⟨hwaiting, hclosings⟩ := hclosed hcase
    exact ⟨by simp [apply, Queue.drain, hwaiting], hclosings⟩

theorem nodup_ids (h : Sound capacity t) :
    ((t.batches.flatten ++ t.cancelled).map (·.id) ++ t.queue.waiting.map (·.id)).Nodup := by
  rw [← List.map_append, ← h.accepted_eq, h.ids_eq]
  exact List.nodup_range

theorem close (h : Sound capacity t) : Sound capacity (t.apply .close) := by
  obtain ⟨-, hnodup, hdisjoint⟩ := List.nodup_append.mp h.nodup_ids
  obtain ⟨hclosed, hwaiting, hsize⟩ := t.queue.closed_close
  have hqueue : (t.apply .close).queue = t.queue.close.2 := rfl
  refine ⟨?_, ?_, ?_, ?_, ?_, ?_, ?_, ?_⟩
  · rw [hqueue, capacity_close, h.capacity_eq]
  · simp [hqueue, length, hwaiting]
  · rw [hqueue, hwaiting, List.append_nil]
    simp [Trace.apply, h.accepted_eq]
  · rw [hqueue, hsize]
    exact h.ids_eq
  · simp [hqueue, hwaiting]
  · intro c hc
    rcases List.mem_append.mp hc with hc | hc
    · refine (h.cancelled c hc).close_of_ne fun hid => ?_
      exact hdisjoint _ (List.mem_map_of_mem (List.mem_append_right _ hc)) _ hid rfl
    · exact (h.owed c hc).close_of_waiting (List.mem_map_of_mem hc) hnodup
  · intro hopen
    rw [hqueue, hclosed] at hopen
    cases hopen
  · intro _
    refine ⟨hwaiting, ?_⟩
    cases hcase : t.queue.closed with
    | true =>
      -- Nothing has been waiting since the first closing.
      obtain ⟨hnone, n, hclosings⟩ := h.closed_eq hcase
      refine ⟨n + 1, ?_⟩
      simp [Trace.apply, Queue.close, length, hnone, hclosings, List.replicate_succ']
    | false =>
      obtain ⟨hcancelled, hclosings⟩ := h.open_eq hcase
      exact ⟨0, by simp [Trace.apply, Queue.close, length, hcancelled, hclosings]⟩

theorem apply (h : Sound capacity t) (op : QueueOp) : Sound capacity (t.apply op) := by
  cases op with
  | submit request submittedAt => exact h.submit request submittedAt
  | drain max => exact h.drain max
  | close => exact h.close

theorem foldl (h : Sound capacity t) (ops : List QueueOp) :
    Sound capacity (ops.foldl Trace.apply t) := by
  induction ops generalizing t with
  | nil => exact h
  | cons op rest ih => exact ih (h.apply op)

end Sound

/-- However a queue is used, it admits a command as long as it is open and has room, and refuses it
without a trace otherwise. The accepted commands are numbered in order and carry what was
submitted; what was drained, what was cancelled and what waits are together just these, in the
same order. A draining takes as many commands as it may and finds. The first closing cancels what
waits, and after it nothing ever waits again. -/
theorem passes_in_order {capacity : Nat} {q : Queue} (hcreate : create capacity = .ok q)
    (ops : List QueueOp) :
    let t := ops.foldl apply (opened q)
    (∀ request submittedAt,
      (t.queue.closed = true → t.queue.submit request submittedAt = .error .shutdown) ∧
      (t.queue.closed = false → capacity ≤ t.queue.length →
        t.queue.submit request submittedAt = .error .queueFull) ∧
      (t.queue.closed = false → t.queue.length < capacity →
        ∃ q', t.queue.submit request submittedAt = .ok (t.accepted.length, q') ∧
          q'.waiting = t.queue.waiting ++ [⟨t.accepted.length, request, submittedAt⟩]) ∧
      ∀ e, t.queue.submit request submittedAt = .error e →
        t.apply (.submit request submittedAt) = t) ∧
    t.accepted.map (·.id) = List.range t.accepted.length ∧
    t.batches.flatten ++ t.cancelled ++ t.queue.waiting = t.accepted ∧
    (∀ max, (t.queue.drain max).1.length = min max t.queue.length) ∧
    t.queue.length ≤ capacity ∧
    (t.queue.closed = false → t.cancelled = [] ∧ t.closings = []) ∧
    (t.closings ≠ [] → t.queue.closed = true ∧ t.queue.length = 0 ∧
      (∃ n, t.closings = t.cancelled.length :: List.replicate n 0) ∧
      ∀ c ∈ t.cancelled, t.queue.HasTicket c.id (Ticket.Delivered (.error .shutdown))) := by
  obtain rfl : empty capacity = q := by
    rw [create] at hcreate
    split at hcreate
    · cases hcreate
    · exact Except.ok.inj hcreate
  intro t
  have hsound : t.Sound capacity := (Sound.opened capacity).foldl ops
  have hsize : t.queue.tickets.size = t.accepted.length := by
    simpa using (congrArg List.length hsound.ids_eq).symm
  refine ⟨?_, ?_, hsound.accepted_eq.symm, ?_, hsound.length_le, hsound.open_eq, ?_⟩
  · intro request submittedAt
    refine ⟨fun hclosed => submit_of_closed hclosed request submittedAt, ?_, ?_, ?_⟩
    · intro hopen hfull
      rw [Queue.submit, hsound.capacity_eq, hopen, if_neg (by decide), if_pos hfull]
    · intro hopen hroom
      rw [← hsound.capacity_eq] at hroom
      exact ⟨_, submit_eq_ok.mpr ⟨hopen, hroom, hsize.symm, rfl⟩, by rw [← hsize]⟩
    · intro e he
      rw [apply, he]
  · rw [← hsize]
    exact hsound.ids_eq
  · intro max
    simp [Queue.drain, length]
  · intro hclosings
    have hclosed : t.queue.closed = true := by
      cases hcase : t.queue.closed with
      | true => rfl
      | false => exact absurd (hsound.open_eq hcase).2 hclosings
    obtain ⟨hwaiting, hreported⟩ := hsound.closed_eq hclosed
    exact ⟨hclosed, by simp [length, hwaiting], hreported, hsound.cancelled⟩

/-- A queue for two commands that refuses the third one, is drained of one and closed twice. -/
theorem third_refused_second_cancelled :
    let t := [.submit .pause .zero, .submit .resume .zero, .submit .status .zero, .drain 1, .close,
      .close].foldl apply (opened (empty 2))
    t.queue.length = 0 ∧ t.accepted.length = 2 ∧
      ∀ c ∈ t.cancelled, t.queue.HasTicket c.id (Ticket.Delivered (.error .shutdown)) := by
  have hcreate : create 2 = .ok (empty 2) := rfl
  obtain ⟨-, -, -, -, -, -, hclosed⟩ := passes_in_order hcreate
    [.submit .pause .zero, .submit .resume .zero, .submit .status .zero, .drain 1, .close, .close]
  obtain ⟨-, hlength, -, hcancelled⟩ := hclosed (by simp [apply])
  exact ⟨hlength, rfl, hcancelled⟩

end Trace

end Queue

end CommandBridge
