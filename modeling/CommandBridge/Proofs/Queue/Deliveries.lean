import CommandBridge.Queue.Basic

/-!
# Deliveries

A ticket is delivered once, and what becomes of its future does not matter for that. The two
states that a ticket of a queue can be in are `Ticket.Open`, in which a delivery succeeds, and
`Ticket.Delivered outcome`, in which the outcome is fixed. Using the future leads out of neither
(`Ticket.Open.use`, `Ticket.Delivered.use`).

For a queue, `Queue.HasTicket q id P` says that `P` holds of the ticket with number `id`. Closing
a queue delivers to the waiting commands and to no others (`Queue.HasTicket.close_of_waiting`,
`Queue.HasTicket.close_of_ne`).
-/

namespace CommandBridge

/-- What the holder of a future may do with it, apart from looking at it. -/
inductive FutureUse
  /-- Take the outcome if it is there. -/
  | poll
  /-- Wait until a deadline. -/
  | wait
  /-- Let go of it. -/
  | drop

/-- The ticket after its future was used. -/
def FutureUse.apply (use : FutureUse) (t : Ticket Reply) : Ticket Reply :=
  match use with
  | .poll => t.poll.2
  | .wait => t.wait.2
  | .drop => t.dropFuture

namespace Ticket

variable {α : Type} {outcome : Outcome α}

/-- Nothing was delivered, and something still can be. -/
structure Open (t : Ticket α) : Prop where
  completer_eq : t.completer = .ready
  state_eq : t.state = .pending
  slot_eq : t.slot = none
  future_ne : t.future ≠ .taken

/-- An outcome was delivered. It is there to be taken as long as the future was not used. -/
structure Delivered (outcome : Outcome α) (t : Ticket α) : Prop where
  completer_eq : t.completer = .used
  state_eq : t.state = .ofOutcome outcome
  slot_eq : t.slot = if t.future = .waiting then some outcome else none

theorem open_issue (id : Nat) : (issue id : Ticket α).Open := ⟨rfl, rfl, rfl, by simp [issue]⟩

/-- The first delivery counts. -/
theorem Open.complete {t : Ticket α} (h : t.Open) (outcome : Outcome α) :
    (t.complete outcome).1 = .ok () ∧ (t.complete outcome).2.Delivered outcome := by
  obtain ⟨id, state, completer, slot, future⟩ := t
  obtain ⟨rfl, -, rfl, hfuture⟩ := h
  refine ⟨rfl, ?_⟩
  cases future with
  | waiting => exact ⟨rfl, rfl, rfl⟩
  | taken => exact absurd rfl hfuture
  | gone => exact ⟨rfl, rfl, rfl⟩

/-! ### Futures -/

/-- Before the delivery there is nothing to take, and waiting runs into its deadline. -/
theorem Open.peek_eq {t : Ticket α} (h : t.Open) : t.peek = none := by
  rw [peek, h.slot_eq, h.completer_eq]
  rfl

theorem Open.poll_eq {t : Ticket α} (h : t.Open) : t.poll = (none, t) := by
  rw [poll, h.peek_eq]
  split <;> rfl

theorem Open.isReady_eq {t : Ticket α} (h : t.Open) : t.isReady = false := by
  rw [isReady, h.slot_eq]
  exact Bool.and_false _

/-- After the delivery, whoever has not used the future yet gets the outcome. -/
theorem Delivered.peek_eq {t : Ticket α} (h : t.Delivered outcome)
    (hfuture : t.future = .waiting) : t.peek = some outcome := by
  rw [peek, h.slot_eq, hfuture, if_pos rfl]

theorem Delivered.poll_eq {t : Ticket α} (h : t.Delivered outcome)
    (hfuture : t.future = .waiting) : t.poll.1 = some outcome := by
  rw [poll, hfuture, h.peek_eq hfuture]

theorem Delivered.isReady_eq {t : Ticket α} (h : t.Delivered outcome)
    (hfuture : t.future = .waiting) : t.isReady = true := by
  rw [isReady, h.slot_eq, hfuture]
  rfl

/-- A delivery does not use the future. -/
theorem future_complete (t : Ticket α) (outcome : Outcome α) :
    (t.complete outcome).2.future = t.future := by
  simp only [complete, deliver]
  split <;> (try split) <;> rfl

theorem Open.dropFuture {t : Ticket α} (h : t.Open) : t.dropFuture.Open :=
  ⟨h.completer_eq, h.state_eq, rfl, by simp [Ticket.dropFuture]⟩

theorem Delivered.dropFuture {t : Ticket α} (h : t.Delivered outcome) :
    t.dropFuture.Delivered outcome :=
  ⟨h.completer_eq, h.state_eq, rfl⟩

theorem Open.use {t : Ticket Reply} (h : t.Open) (use : FutureUse) : (use.apply t).Open := by
  cases use with
  | poll =>
    -- There is nothing to take yet, so looking leaves the ticket as it is.
    rw [FutureUse.apply, h.poll_eq]
    exact h
  | wait => exact h.dropFuture
  | drop => exact h.dropFuture

theorem Delivered.use {outcome : Outcome Reply} {t : Ticket Reply} (h : t.Delivered outcome)
    (use : FutureUse) : (use.apply t).Delivered outcome := by
  cases use with
  | poll =>
    rw [FutureUse.apply, Ticket.poll]
    split
    case h_1 hfuture =>
      rw [h.peek_eq hfuture]
      exact ⟨h.completer_eq, h.state_eq, rfl⟩
    case h_2 => exact h
  | wait => exact h.dropFuture
  | drop => exact h.dropFuture

end Ticket

/-! ### Tickets of a queue -/

namespace Queue

variable {q : Queue} {id : Nat} {P Q : Ticket Reply → Prop}

/-- There is a ticket with the number, and `P` holds of it. -/
def HasTicket (q : Queue) (id : Nat) (P : Ticket Reply → Prop) : Prop :=
  ∃ t, q.tickets[id]? = some t ∧ P t

theorem HasTicket.imp (h : q.HasTicket id P) (himp : ∀ t, P t → Q t) : q.HasTicket id Q := by
  obtain ⟨t, ht, hP⟩ := h
  exact ⟨t, ht, himp t hP⟩

theorem HasTicket.congr {q' : Queue} (h : q.HasTicket id P) (htickets : q'.tickets = q.tickets) :
    q'.HasTicket id P := by
  rwa [HasTicket, htickets]

theorem HasTicket.modify_self (h : q.HasTicket id P) {f : Ticket Reply → Ticket Reply}
    (hf : ∀ t, P t → Q (f t)) : (q.modifyTicket id f).HasTicket id Q := by
  obtain ⟨t, ht, hP⟩ := h
  refine ⟨f t, ?_, hf t hP⟩
  rw [modifyTicket, Array.getElem?_modify, if_pos rfl, ht, Option.map_some]

theorem HasTicket.modify_of_ne (h : q.HasTicket id P) {id' : Nat} (hne : id' ≠ id)
    (f : Ticket Reply → Ticket Reply) : (q.modifyTicket id' f).HasTicket id P := by
  obtain ⟨t, ht, hP⟩ := h
  refine ⟨t, ?_, hP⟩
  rw [modifyTicket, Array.getElem?_modify, if_neg hne, ht]

/-- A property that the change preserves holds after it, whatever ticket was changed. -/
theorem HasTicket.modify (h : q.HasTicket id P) {f : Ticket Reply → Ticket Reply}
    (hf : ∀ t, P t → P (f t)) (id' : Nat) : (q.modifyTicket id' f).HasTicket id P := by
  by_cases hid : id' = id
  · subst hid
    exact h.modify_self hf
  · exact h.modify_of_ne hid f

/-- Changing a ticket into itself changes nothing, and neither does changing one that there is
not. -/
theorem modifyTicket_eq_self {f : Ticket Reply → Ticket Reply}
    (h : ∀ t, q.tickets[id]? = some t → f t = t) : q.modifyTicket id f = q := by
  have htickets : q.tickets.modify id f = q.tickets := by
    apply Array.ext_getElem?
    intro i
    rw [Array.getElem?_modify]
    split
    case isTrue hi =>
      subst hi
      cases hticket : q.tickets[id]? with
      | none => rfl
      | some t => rw [Option.map_some, h t hticket]
    case isFalse => rfl
  rw [modifyTicket, htickets]

theorem HasTicket.complete_self (h : q.HasTicket id Ticket.Open) (outcome : Outcome Reply) :
    (q.complete id outcome).HasTicket id (Ticket.Delivered outcome) :=
  h.modify_self fun _ ht => (ht.complete outcome).2

theorem HasTicket.complete_of_ne (h : q.HasTicket id P) {id' : Nat} (hne : id' ≠ id)
    (outcome : Outcome Reply) : (q.complete id' outcome).HasTicket id P :=
  h.modify_of_ne hne _

/-! ### Submission -/

/-- What a submission does if it is accepted. -/
theorem submit_eq_ok {request : Request} {tick : Tick} {q' : Queue} :
    q.submit request tick = .ok (id, q') ↔
      q.closed = false ∧ q.length < q.capacity ∧ id = q.tickets.size ∧
        q' = { q with
          waiting := q.waiting ++ [⟨q.tickets.size, request, tick⟩]
          tickets := q.tickets.push (Ticket.issue q.tickets.size) } := by
  rw [submit, nextId]
  cases q.closed with
  | true => simp
  | false =>
    by_cases hroom : q.length < q.capacity
    · have hfull : ¬ q.capacity ≤ q.length := by omega
      simp [hfull, hroom, eq_comm]
    · have hfull : q.capacity ≤ q.length := by omega
      simp [hfull, hroom]

theorem submit_of_closed (h : q.closed = true) (request : Request) (tick : Tick) :
    q.submit request tick = .error .shutdown := by
  rw [submit, h, if_pos rfl]

theorem HasTicket.push (h : q.HasTicket id P) {waiting : List Command} (t : Ticket Reply) :
    HasTicket { q with waiting := waiting, tickets := q.tickets.push t } id P := by
  obtain ⟨t', ht', hP⟩ := h
  refine ⟨t', ?_, hP⟩
  have hlt : id < q.tickets.size := (Array.getElem?_eq_some_iff.mp ht').1
  rw [Array.getElem?_push, if_neg (by omega), ht']

theorem hasTicket_push_size {waiting : List Command} (t : Ticket Reply) (ht : P t) :
    HasTicket { q with waiting := waiting, tickets := q.tickets.push t } q.tickets.size P :=
  ⟨t, Array.getElem?_push_size, ht⟩

/-! ### Closing -/

/-- Cancelling commands one after the other. -/
theorem close_snd (q : Queue) :
    q.close.2 = (q.waiting.map (·.id)).foldl (fun q id => q.complete id (.error .shutdown))
      { q with waiting := [], closed := true } := by
  rw [close, List.foldl_map]

theorem closed_foldl_complete (ids : List Nat) (q : Queue) (outcome : Outcome Reply) :
    (ids.foldl (fun q id => q.complete id outcome) q).closed = q.closed ∧
      (ids.foldl (fun q id => q.complete id outcome) q).waiting = q.waiting ∧
      (ids.foldl (fun q id => q.complete id outcome) q).tickets.size = q.tickets.size := by
  induction ids generalizing q with
  | nil => exact ⟨rfl, rfl, rfl⟩
  | cons id rest ih =>
    obtain ⟨hclosed, hwaiting, hsize⟩ := ih (q.complete id outcome)
    exact ⟨hclosed, hwaiting, hsize.trans (Array.size_modify ..)⟩

theorem HasTicket.foldl_complete_of_not_mem (h : q.HasTicket id P) {ids : List Nat}
    (hid : id ∉ ids) (outcome : Outcome Reply) :
    (ids.foldl (fun q id => q.complete id outcome) q).HasTicket id P := by
  induction ids generalizing q with
  | nil => exact h
  | cons id' rest ih =>
    have hne : id' ≠ id := fun heq => hid (heq ▸ List.mem_cons_self)
    exact ih (h.complete_of_ne hne outcome) fun hrest => hid (List.mem_cons_of_mem _ hrest)

theorem HasTicket.foldl_complete_of_mem (h : q.HasTicket id Ticket.Open) {ids : List Nat}
    (hid : id ∈ ids) (hnodup : ids.Nodup) (outcome : Outcome Reply) :
    (ids.foldl (fun q id => q.complete id outcome) q).HasTicket id
      (Ticket.Delivered outcome) := by
  induction ids generalizing q with
  | nil => cases hid
  | cons id' rest ih =>
    obtain ⟨hnot, hrest⟩ := List.nodup_cons.mp hnodup
    by_cases hne : id' = id
    · -- The numbers are distinct, so the later deliveries go to other tickets.
      subst hne
      exact (h.complete_self outcome).foldl_complete_of_not_mem hnot outcome
    · refine ih (h.complete_of_ne hne outcome) ?_ hrest
      exact (List.mem_cons.mp hid).resolve_left (Ne.symm hne)

theorem closed_close (q : Queue) :
    q.close.2.closed = true ∧ q.close.2.waiting = [] ∧
      q.close.2.tickets.size = q.tickets.size := by
  rw [close_snd]
  exact closed_foldl_complete _ _ _

/-- Closing delivers to the commands that wait. -/
theorem HasTicket.close_of_waiting (h : q.HasTicket id Ticket.Open)
    (hid : id ∈ q.waiting.map (·.id)) (hnodup : (q.waiting.map (·.id)).Nodup) :
    q.close.2.HasTicket id (Ticket.Delivered (.error .shutdown)) := by
  have hcleared : HasTicket { q with waiting := [], closed := true } id Ticket.Open := h.congr rfl
  rw [close_snd]
  exact hcleared.foldl_complete_of_mem hid hnodup _

/-- Closing leaves the tickets of all other commands alone. -/
theorem HasTicket.close_of_ne (h : q.HasTicket id P) (hid : id ∉ q.waiting.map (·.id)) :
    q.close.2.HasTicket id P := by
  have hcleared : HasTicket { q with waiting := [], closed := true } id P := h.congr rfl
  rw [close_snd]
  exact hcleared.foldl_complete_of_not_mem hid _

end Queue

end CommandBridge
