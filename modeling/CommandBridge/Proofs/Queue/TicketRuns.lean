import CommandBridge.Queue.Ticket

/-!
# Tickets under operations in any order

Completer and future of a ticket may be in the hands of different threads, so their operations come
in any order. `Ticket.run` performs a list of operations and collects the answers. What the answers
are does not depend on how the operations of the two halves are mixed; two things about the list
decide it (`TicketOp.firstAttempt`, `TicketOp.completerDropped`):

* which outcome was the first that somebody tried to deliver,
* whether the completer was dropped.

`Ticket.Follows` is the invariant that ties the fields of a ticket to the operations so far. It has
one lemma for each half (`Follows.attempt`, `Follows.use`), from which `Follows.perform` and the
induction over the list come.

An operation on a half that is not there any more answers `gone`. Callers cannot do this, as
dropping a half and waiting both take the half away from them.
-/

namespace CommandBridge

/-- What the holders of the two halves of a ticket may do. -/
inductive TicketOp (α : Type)
  | fulfill (value : α)
  | fail (error : CommandError)
  | complete (outcome : Outcome α)
  | dropCompleter
  | isReady
  | poll
  | wait
  | waitBlocking
  | dropFuture

/-- What they are told. -/
inductive TicketAnswer (α : Type)
  | completion (verdict : Except AlreadyCompleted Unit)
  | ready (yes : Bool)
  | polled (outcome : Option (Outcome α))
  | waited (outcome : Outcome α)
  /-- Waiting goes on. -/
  | blocked
  | completerDropped
  | futureDropped
  /-- The half is not there any more. -/
  | gone

variable {α : Type}

/-! ### Histories -/

namespace TicketOp

/-- The outcome that an operation tries to deliver. -/
def attempt? : TicketOp α → Option (Outcome α)
  | fulfill value => some (.ok value)
  | fail error => some (.error error)
  | complete outcome => some outcome
  | _ => none

def dropsCompleter : TicketOp α → Bool
  | dropCompleter => true
  | _ => false

/-- Whether the completer was dropped. -/
def completerDropped (ops : List (TicketOp α)) : Bool := ops.any dropsCompleter

/-- The first outcome that the completer tried to deliver while it was there. -/
def firstAttempt (ops : List (TicketOp α)) : Option (Outcome α) :=
  (ops.takeWhile fun op => !op.dropsCompleter).findSome? attempt?

/-- What there is for the future: the first outcome, or the error of a completer that was dropped
without one. -/
def sent (ops : List (TicketOp α)) : Option (Outcome α) :=
  (firstAttempt ops).or
    (if completerDropped ops then some (.error (.internal .unresolved)) else none)

theorem completerDropped_concat (ops : List (TicketOp α)) (op : TicketOp α) :
    completerDropped (ops ++ [op]) = (completerDropped ops || op.dropsCompleter) := by
  simp [completerDropped]

theorem attempt?_eq_none_of_dropsCompleter {op : TicketOp α} (h : op.dropsCompleter = true) :
    op.attempt? = none := by
  cases op <;> simp_all [dropsCompleter, attempt?]

theorem firstAttempt_concat (ops : List (TicketOp α)) (op : TicketOp α) :
    firstAttempt (ops ++ [op]) =
      (firstAttempt ops).or (if completerDropped ops then none else op.attempt?) := by
  induction ops with
  | nil =>
    cases hdrops : op.dropsCompleter with
    | true =>
      simp [firstAttempt, completerDropped, hdrops, attempt?_eq_none_of_dropsCompleter hdrops]
    | false =>
      cases hattempt : op.attempt? <;>
        simp [firstAttempt, completerDropped, hdrops, hattempt]
  | cons x rest ih =>
    cases hdrops : x.dropsCompleter with
    | true => simp [firstAttempt, completerDropped, hdrops]
    | false =>
      cases hattempt : x.attempt? with
      | some outcome => simp [firstAttempt, hdrops, hattempt]
      | none => simpa [firstAttempt, completerDropped, hdrops, hattempt] using ih

/-- What comes later does not change the first attempt. -/
theorem firstAttempt_append {ops : List (TicketOp α)} {outcome : Outcome α}
    (h : firstAttempt ops = some outcome) (more : List (TicketOp α)) :
    firstAttempt (ops ++ more) = some outcome := by
  induction more generalizing ops with
  | nil => simpa using h
  | cons op rest ih =>
    have hnext : firstAttempt (ops ++ [op]) = some outcome := by
      simp [firstAttempt_concat, h]
    simpa using ih hnext

end TicketOp

namespace TicketAnswer

/-- The outcome that an answer hands out. -/
def outcome? : TicketAnswer α → Option (Outcome α)
  | polled outcome => outcome
  | waited outcome => some outcome
  | _ => none

/-- Whether the answer is the last one of a future that has an outcome left to give. -/
def endsFuture : TicketAnswer α → Bool
  | polled outcome => outcome.isSome
  | waited _ | futureDropped => true
  | _ => false

end TicketAnswer

namespace Ticket

open TicketOp

/-! ### Runs -/

/-- Tries to deliver an outcome. -/
def attempt (t : Ticket α) (outcome : Outcome α) : TicketAnswer α × Ticket α :=
  if t.completer = .dropped then (.gone, t)
  else (.completion (t.complete outcome).1, (t.complete outcome).2)

/-- The effect of an operation on the future, provided the future is there. -/
def ifHeld (t : Ticket α) (effect : TicketAnswer α × Ticket α) : TicketAnswer α × Ticket α :=
  if t.future = .gone then (.gone, t) else effect

def perform (t : Ticket α) : TicketOp α → TicketAnswer α × Ticket α
  | .fulfill value => t.attempt (.ok value)
  | .fail error => t.attempt (.error error)
  | .complete outcome => t.attempt outcome
  | .dropCompleter =>
    if t.completer = .dropped then (.gone, t) else (.completerDropped, t.dropCompleter)
  | .isReady => t.ifHeld (.ready t.isReady, t)
  | .poll => t.ifHeld (.polled t.poll.1, t.poll.2)
  | .wait => t.ifHeld (.waited t.wait.1, t.wait.2)
  | .waitBlocking =>
    t.ifHeld (if t.blocks then (.blocked, t) else (.waited t.wait.1, t.wait.2))
  | .dropFuture => t.ifHeld (.futureDropped, t.dropFuture)

/-- Performs operations in order and collects the answers. -/
def run (t : Ticket α) : List (TicketOp α) → List (TicketAnswer α) × Ticket α
  | [] => ([], t)
  | op :: rest =>
    let r := t.perform op
    let rs := r.2.run rest
    (r.1 :: rs.1, rs.2)

theorem perform_of_attempt {op : TicketOp α} {outcome : Outcome α}
    (h : op.attempt? = some outcome) (t : Ticket α) : t.perform op = t.attempt outcome := by
  cases op <;> cases h <;> rfl

/-! ### The invariant -/

/-- The state that the first attempt leads to. -/
def stateAfter (ops : List (TicketOp α)) : TicketState :=
  (firstAttempt ops).elim .pending .ofOutcome

/-- The fields of a ticket with the given number are what the operations so far have made of
them. -/
structure Follows (id : Nat) (ops : List (TicketOp α)) (t : Ticket α) : Prop where
  id_eq : t.id = id
  state_eq : t.state = stateAfter ops
  completer_eq : t.completer =
    if completerDropped ops then .dropped
    else if (firstAttempt ops).isSome then .used else .ready
  slot_eq : t.slot = if t.future = .waiting then sent ops else none
  /-- Nothing is taken before it was sent. -/
  sent_of_taken : t.future = .taken → (sent ops).isSome = true

namespace Follows

variable {id : Nat} {ops : List (TicketOp α)} {t : Ticket α} {op : TicketOp α}

theorem issue (id : Nat) : Follows id [] (issue id : Ticket α) :=
  ⟨rfl, rfl, rfl, rfl, by simp [Ticket.issue]⟩

/-- Only the summary of the operations counts. -/
theorem congr (h : Follows id ops t) {ops' : List (TicketOp α)}
    (hfirst : firstAttempt ops' = firstAttempt ops)
    (hdropped : completerDropped ops' = completerDropped ops) : Follows id ops' t := by
  obtain ⟨hid, hstate, hcompleter, hslot, htaken⟩ := h
  refine ⟨hid, ?_, ?_, ?_, ?_⟩ <;> simpa only [stateAfter, sent, hfirst, hdropped]

/-- As long as the future is held, looking into the slot shows what was sent. -/
theorem peek_eq (h : Follows id ops t) (hfuture : t.future = .waiting) : t.peek = sent ops := by
  have hslot : t.slot = sent ops := by rw [h.slot_eq, if_pos hfuture]
  rw [peek, hslot]
  cases hsent : sent ops with
  | some outcome => rfl
  | none =>
    -- Nothing was sent, so the completer can still deliver.
    have hready : t.completer = .ready := by
      rw [h.completer_eq]
      simp only [sent, Option.or_eq_none_iff] at hsent
      simp_all
    simp [hready]

/-- An outcome is delivered. The future is held or gone; it cannot have taken anything before. -/
theorem deliver (h : Follows id ops t) (hopen : sent ops = none) {ops' : List (TicketOp α)}
    {outcome : Outcome α} {state : TicketState} {completer : Completer}
    (hsent : sent ops' = some outcome) (hstate : state = stateAfter ops')
    (hcompleter : completer = if completerDropped ops' then .dropped
      else if (firstAttempt ops').isSome then .used else .ready) :
    Follows id ops' ({ t with state := state, completer := completer }.deliver outcome) := by
  have htaken : t.future ≠ .taken := by
    intro htaken
    simpa [hopen] using h.sent_of_taken htaken
  rw [Ticket.deliver]
  split
  case isTrue hgone =>
    replace hgone : t.future = .gone := hgone
    refine ⟨h.id_eq, hstate, hcompleter, ?_, fun _ => by simp [hsent]⟩
    simpa [hgone] using h.slot_eq
  case isFalse hgone =>
    have hwaiting : t.future = .waiting := by
      cases hfuture : t.future <;> simp_all
    exact ⟨h.id_eq, hstate, hcompleter, by simp [hwaiting, hsent], fun _ => by simp [hsent]⟩

theorem attempt (h : Follows id ops t) {outcome : Outcome α}
    (hattempt : op.attempt? = some outcome) : Follows id (ops ++ [op]) (t.attempt outcome).2 := by
  have hdrops : op.dropsCompleter = false := by
    cases op <;> simp_all [attempt?, dropsCompleter]
  have hfirst := firstAttempt_concat ops op
  have hdropped := completerDropped_concat ops op
  rw [hdrops, Bool.or_false] at hdropped
  rw [hattempt] at hfirst
  have hcompleter := h.completer_eq
  rw [Ticket.attempt]
  cases hgone : completerDropped ops with
  | true =>
    simp only [hgone, ↓reduceIte, Option.or_none] at hcompleter hfirst
    rw [if_pos hcompleter]
    exact h.congr hfirst hdropped
  | false =>
    cases hold : firstAttempt ops with
    | some first =>
      simp only [hgone, hold, Option.isSome_some, Bool.false_eq_true, ↓reduceIte,
        Option.some_or] at hcompleter hfirst
      simp only [complete, hcompleter, reduceCtorEq, ↓reduceIte]
      exact h.congr (hfirst.trans hold.symm) hdropped
    | none =>
      simp only [hgone, hold, Option.isSome_none, Bool.false_eq_true, ↓reduceIte,
        Option.none_or] at hcompleter hfirst
      simp only [complete, hcompleter, reduceCtorEq, ↓reduceIte]
      exact h.deliver (by simp [sent, hold, hgone]) (by simp [sent, hfirst])
        (by simp [stateAfter, hfirst]) (by simp [hdropped, hgone, hfirst])

theorem dropCompleter (h : Follows id ops t) :
    Follows id (ops ++ [.dropCompleter]) (t.perform .dropCompleter).2 := by
  have hfirst : firstAttempt (ops ++ [.dropCompleter]) = firstAttempt ops := by
    simp [firstAttempt_concat, attempt?]
  have hdropped : completerDropped (ops ++ [.dropCompleter]) = true := by
    simp [completerDropped_concat, dropsCompleter]
  have hcompleter := h.completer_eq
  rw [perform]
  cases hgone : completerDropped ops with
  | true =>
    simp only [hgone, ↓reduceIte] at hcompleter
    rw [if_pos hcompleter]
    exact h.congr hfirst (hdropped.trans hgone.symm)
  | false =>
    cases hold : firstAttempt ops with
    | some first =>
      have hsent : sent (ops ++ [.dropCompleter]) = sent ops := by
        simp [sent, hfirst, hold]
      simp only [hgone, hold, Option.isSome_some, Bool.false_eq_true, ↓reduceIte] at hcompleter
      simp only [Ticket.dropCompleter, hcompleter, reduceCtorEq, ↓reduceIte]
      refine ⟨h.id_eq, ?_, by simp [hdropped], ?_, ?_⟩
      · rw [stateAfter, hfirst]
        exact h.state_eq
      · rw [hsent]
        exact h.slot_eq
      · rw [hsent]
        exact h.sent_of_taken
    | none =>
      simp only [hgone, hold, Option.isSome_none, Bool.false_eq_true, ↓reduceIte] at hcompleter
      simp only [Ticket.dropCompleter, hcompleter, reduceCtorEq, ↓reduceIte]
      refine h.deliver (by simp [sent, hold, hgone]) (by simp [sent, hfirst, hold, hdropped]) ?_
        (by simp [hdropped])
      rw [h.state_eq, stateAfter, stateAfter, hfirst]

/-- The future is consumed. -/
theorem dropFuture (h : Follows id ops t) : Follows id ops t.dropFuture :=
  ⟨h.id_eq, h.state_eq, h.completer_eq, rfl, by simp⟩

theorem poll (h : Follows id ops t) : Follows id ops t.poll.2 := by
  rw [Ticket.poll]
  split
  case h_1 hwaiting =>
    rw [h.peek_eq hwaiting]
    cases hsent : sent ops with
    | none => exact h
    | some outcome => exact ⟨h.id_eq, h.state_eq, h.completer_eq, rfl, fun _ => by simp [hsent]⟩
  case h_2 => exact h

theorem ifHeld (h : Follows id ops t) {effect : TicketAnswer α × Ticket α}
    (heffect : Follows id ops effect.2) : Follows id ops (t.ifHeld effect).2 := by
  rw [Ticket.ifHeld]
  split
  · exact h
  · exact heffect

/-- Operations on the future do not count for the history. -/
theorem use (h : Follows id ops t) (hattempt : op.attempt? = none)
    (hdrops : op.dropsCompleter = false) : Follows id ops (t.perform op).2 := by
  cases op with
  | isReady => exact h.ifHeld h
  | poll => exact h.ifHeld h.poll
  | wait => exact h.ifHeld h.dropFuture
  | waitBlocking =>
    refine h.ifHeld ?_
    split
    · exact h
    · exact h.dropFuture
  | dropFuture => exact h.ifHeld h.dropFuture
  | dropCompleter => cases hdrops
  | _ => cases hattempt

theorem perform (h : Follows id ops t) (op : TicketOp α) :
    Follows id (ops ++ [op]) (t.perform op).2 := by
  cases hattempt : op.attempt? with
  | some outcome =>
    rw [perform_of_attempt hattempt]
    exact h.attempt hattempt
  | none =>
    by_cases hdrops : op.dropsCompleter = true
    · cases op <;> cases hdrops
      exact h.dropCompleter
    · simp only [Bool.not_eq_true] at hdrops
      refine (h.use hattempt hdrops).congr ?_ ?_
      · simp [firstAttempt_concat, hattempt]
      · simp [completerDropped_concat, hdrops]

theorem run (h : Follows id ops t) (more : List (TicketOp α)) :
    Follows id (ops ++ more) (t.run more).2 := by
  induction more generalizing ops t with
  | nil => simpa [Ticket.run] using h
  | cons op rest ih =>
    have hrest := ih (h.perform op)
    rwa [List.append_assoc] at hrest

end Follows

/-! ### What becomes of the future -/

theorem future_deliver (t : Ticket α) (outcome : Outcome α) :
    (t.deliver outcome).future = t.future := by
  rw [deliver]
  split <;> rfl

theorem future_attempt (t : Ticket α) (outcome : Outcome α) :
    (t.attempt outcome).2.future = t.future := by
  rw [attempt, complete]
  split
  · rfl
  · split
    · exact future_deliver _ _
    · rfl

theorem future_dropCompleter (t : Ticket α) : t.dropCompleter.future = t.future := by
  rw [dropCompleter]
  split
  · exact future_deliver _ _
  · rfl

theorem poll_cases (t : Ticket α) :
    t.poll = (none, t) ∨ ∃ outcome, t.poll.1 = some outcome ∧ t.poll.2.future = .taken := by
  rw [poll]
  split
  · cases t.peek with
    | none => exact .inl rfl
    | some outcome => exact .inr ⟨outcome, rfl, rfl⟩
  · exact .inl rfl

/-- An operation leaves the future as it is, takes the outcome from it, or consumes it. -/
theorem future_perform_cases (t : Ticket α) (op : TicketOp α) :
    (t.perform op).2.future = t.future ∨
    (∃ outcome, (t.perform op).1 = .polled (some outcome) ∧
      (t.perform op).2.future = .taken) ∨
    ((t.perform op).1.endsFuture = true ∧ (t.perform op).2.future = .gone) := by
  have hheld : ∀ effect : TicketAnswer α × Ticket α,
      t.ifHeld effect = (.gone, t) ∨ t.ifHeld effect = effect := by
    intro effect
    rw [ifHeld]
    split
    · exact .inl rfl
    · exact .inr rfl
  cases op with
  | fulfill value => exact .inl (t.future_attempt _)
  | fail error => exact .inl (t.future_attempt _)
  | complete outcome => exact .inl (t.future_attempt _)
  | dropCompleter =>
    refine .inl ?_
    rw [perform]
    split
    · rfl
    · exact t.future_dropCompleter
  | isReady => rcases hheld (.ready t.isReady, t) with h | h <;> exact .inl (by rw [perform, h])
  | poll =>
    rw [perform]
    rcases hheld (.polled t.poll.1, t.poll.2) with h | h <;> rw [h]
    · exact .inl rfl
    · rcases t.poll_cases with hpoll | ⟨outcome, hpoll, hfuture⟩
      · exact .inl (by rw [hpoll])
      · exact .inr (.inl ⟨outcome, by rw [hpoll], hfuture⟩)
  | wait =>
    rw [perform]
    rcases hheld (.waited t.wait.1, t.wait.2) with h | h <;> rw [h]
    · exact .inl rfl
    · exact .inr (.inr ⟨rfl, rfl⟩)
  | waitBlocking =>
    rw [perform]
    rcases hheld (if t.blocks then (.blocked, t) else (.waited t.wait.1, t.wait.2)) with h | h <;>
      rw [h]
    · exact .inl rfl
    · split
      · exact .inl rfl
      · exact .inr (.inr ⟨rfl, rfl⟩)
  | dropFuture =>
    rw [perform]
    rcases hheld (.futureDropped, t.dropFuture) with h | h <;> rw [h]
    · exact .inl rfl
    · exact .inr (.inr ⟨rfl, rfl⟩)

/-- As long as no answer has ended the future, it is held. -/
theorem future_run_of_not_ended {ops : List (TicketOp α)} {t : Ticket α}
    (hfuture : t.future = .waiting) (h : ∀ a ∈ (t.run ops).1, a.endsFuture = false) :
    (t.run ops).2.future = .waiting := by
  induction ops generalizing t with
  | nil => exact hfuture
  | cons op rest ih =>
    rw [run, List.forall_mem_cons] at h
    refine ih ?_ h.2
    rcases t.future_perform_cases op with hsame | ⟨outcome, hanswer, -⟩ | ⟨hends, -⟩
    · exact hsame.trans hfuture
    · simp [hanswer, TicketAnswer.endsFuture] at h
    · simp [hends] at h

/-- As long as no answer has taken the outcome, it was not taken. -/
theorem future_run_of_not_taken {ops : List (TicketOp α)} {t : Ticket α}
    (hfuture : t.future ≠ .taken) (h : ∀ outcome, .polled (some outcome) ∉ (t.run ops).1) :
    (t.run ops).2.future ≠ .taken := by
  induction ops generalizing t with
  | nil => exact hfuture
  | cons op rest ih =>
    refine ih ?_ fun outcome hmem => h outcome (.tail _ hmem)
    rcases t.future_perform_cases op with hsame | ⟨outcome, hanswer, -⟩ | ⟨-, hgone⟩
    · rwa [hsame]
    · exact absurd (hanswer ▸ List.mem_cons_self) (h outcome)
    · simp [hgone]

/-! ### What the answers are -/

theorem outcome?_attempt (t : Ticket α) (outcome : Outcome α) :
    (t.attempt outcome).1.outcome? = none := by
  rw [attempt]
  split <;> rfl

theorem outcome?_perform_dropCompleter (t : Ticket α) :
    (t.perform .dropCompleter).1.outcome? = none := by
  rw [perform]
  split <;> rfl

/-- A future that is gone hands out nothing. -/
theorem outcome?_perform_of_gone {t : Ticket α} (h : t.future = .gone) (op : TicketOp α) :
    (t.perform op).1.outcome? = none := by
  cases op with
  | dropCompleter => exact t.outcome?_perform_dropCompleter
  | isReady | poll | wait | waitBlocking | dropFuture =>
    simp [perform, ifHeld, h, TicketAnswer.outcome?]
  | _ => exact t.outcome?_attempt _

namespace Follows

variable {id : Nat} {ops : List (TicketOp α)} {t : Ticket α} {op : TicketOp α}

theorem attempt_answer (h : Follows id ops t) (hdropped : completerDropped ops = false)
    (outcome : Outcome α) :
    (t.attempt outcome).1 = .completion (match firstAttempt ops with
      | none => .ok ()
      | some first => .error ⟨id, .ofOutcome first⟩) := by
  have hcompleter := h.completer_eq
  cases hfirst : firstAttempt ops with
  | none => simp_all [Ticket.attempt, complete]
  | some first => simp_all [Ticket.attempt, complete, h.id_eq, h.state_eq, stateAfter]

theorem isReady_eq (h : Follows id ops t) (hfuture : t.future = .waiting) :
    t.isReady = (sent ops).isSome := by
  simp [isReady, h.slot_eq, hfuture]

theorem poll_answer (h : Follows id ops t) (hfuture : t.future = .waiting) :
    t.poll.1 = sent ops := by
  rw [Ticket.poll, hfuture]
  dsimp only
  rw [h.peek_eq hfuture]
  cases sent ops <;> rfl

theorem blocks_eq (h : Follows id ops t) (hfuture : t.future = .waiting) :
    t.blocks = (sent ops).isNone := by
  cases hsent : sent ops <;> simp [blocks, h.isReady_eq hfuture, hfuture, hsent]

/-- A future that is held is ready once something was sent, and hands that out. -/
theorem perform_of_waiting (h : Follows id ops t) (hfuture : t.future = .waiting) :
    (t.perform .isReady).1 = .ready (sent ops).isSome ∧
    (t.perform .poll).1 = .polled (sent ops) ∧
    (t.perform .wait).1 = .waited ((sent ops).getD (.error .timeout)) ∧
    (t.perform .waitBlocking).1 =
      match sent ops with
      | some outcome => .waited outcome
      | none => .blocked := by
  have hheld : ∀ effect : TicketAnswer α × Ticket α, t.ifHeld effect = effect := by
    intro effect
    simp [Ticket.ifHeld, hfuture]
  have hwait : t.wait.1 = (sent ops).getD (.error .timeout) := by
    rw [wait, h.peek_eq hfuture]
  simp only [Ticket.perform, hheld]
  refine ⟨by rw [h.isReady_eq hfuture], by rw [h.poll_answer hfuture], by rw [hwait], ?_⟩
  rw [h.blocks_eq hfuture, hwait]
  cases sent ops <;> rfl

/-- An operation hands out nothing but what was sent, as long as nothing was taken before. -/
theorem sent_of_outcome? (h : Follows id ops t) (hfuture : t.future ≠ .taken)
    {outcome : Outcome α} (hanswer : (t.perform op).1.outcome? = some outcome) :
    sent ops = some outcome ∨ outcome = .error .timeout := by
  have hheld : t.future = .waiting := by
    cases hcase : t.future with
    | waiting => rfl
    | taken => exact absurd hcase hfuture
    | gone =>
      rw [outcome?_perform_of_gone hcase] at hanswer
      cases hanswer
  obtain ⟨hready, hpoll, hwait, hblocking⟩ := h.perform_of_waiting hheld
  cases op with
  | isReady =>
    rw [hready] at hanswer
    cases hanswer
  | poll =>
    rw [hpoll] at hanswer
    exact .inl hanswer
  | wait =>
    rw [hwait] at hanswer
    cases hsent : sent ops with
    | some o =>
      rw [hsent] at hanswer
      exact .inl hanswer
    | none =>
      rw [hsent] at hanswer
      exact .inr (Option.some.inj hanswer).symm
  | waitBlocking =>
    rw [hblocking] at hanswer
    cases hsent : sent ops with
    | some o =>
      rw [hsent] at hanswer
      exact .inl hanswer
    | none =>
      rw [hsent] at hanswer
      cases hanswer
  | dropFuture =>
    simp [Ticket.perform, Ticket.ifHeld, hheld, TicketAnswer.outcome?] at hanswer
  | dropCompleter =>
    rw [outcome?_perform_dropCompleter] at hanswer
    cases hanswer
  | _ =>
    rw [perform_of_attempt rfl, outcome?_attempt] at hanswer
    cases hanswer

end Follows

/-- The first attempt to deliver an outcome decides everything, whatever the order of operations on
the two halves. It succeeds, and every later one is refused and told what the first one was. The
state stays what the first one has made it. A future that is held and has not handed out anything
is ready once there was an attempt or the completer was dropped; whoever asks it then gets the first
outcome, or the error of a completer that was dropped before, and until then gets nothing. The error
of an outcome that is gone for good comes from no operation, unless somebody has delivered it or an
outcome was taken before. -/
theorem first_attempt_decides (id : Nat) (ops : List (TicketOp α)) :
    let answers := ((issue id).run ops).1
    let t := ((issue id).run ops).2
    (completerDropped ops = false → ∀ op outcome, op.attempt? = some outcome →
      (t.perform op).1 = .completion (match firstAttempt ops with
        | none => .ok ()
        | some first => .error ⟨id, .ofOutcome first⟩)) ∧
    t.state = stateAfter ops ∧
    (t.state ≠ .pending → ∀ more, (t.run more).2.state = t.state) ∧
    ((∀ a ∈ answers, a.endsFuture = false) →
      (t.perform .isReady).1 = .ready ((firstAttempt ops).isSome || completerDropped ops) ∧
      (t.perform .poll).1 = .polled (sent ops) ∧
      (t.perform .wait).1 = .waited ((sent ops).getD (.error .timeout)) ∧
      (t.perform .waitBlocking).1 =
        match sent ops with
        | some outcome => .waited outcome
        | none => .blocked) ∧
    ((∀ outcome, .polled (some outcome) ∉ answers) →
      ∀ op, (t.perform op).1.outcome? = some (.error (.internal .abandoned)) →
        firstAttempt ops = some (.error (.internal .abandoned))) := by
  have hfollows : Follows id ops ((issue id).run ops).2 := (Follows.issue id).run ops
  refine ⟨?_, hfollows.state_eq, ?_, ?_, ?_⟩
  · intro hdropped op outcome hattempt
    rw [perform_of_attempt hattempt]
    exact hfollows.attempt_answer hdropped outcome
  · intro hstate more
    rw [(hfollows.run more).state_eq, hfollows.state_eq]
    cases hfirst : firstAttempt ops with
    | none => exact absurd (by rw [hfollows.state_eq, stateAfter, hfirst]; rfl) hstate
    | some first => simp [stateAfter, hfirst, firstAttempt_append hfirst]
  · intro hends
    obtain ⟨hready, hrest⟩ := hfollows.perform_of_waiting (future_run_of_not_ended rfl hends)
    have hsent : (sent ops).isSome = ((firstAttempt ops).isSome || completerDropped ops) := by
      cases hdropped : completerDropped ops <;> simp [sent, hdropped]
    rw [hsent] at hready
    exact ⟨hready, hrest⟩
  · intro htaken op hanswer
    have hfuture : ((issue id).run ops).2.future ≠ .taken :=
      future_run_of_not_taken (by simp [issue]) htaken
    rcases hfollows.sent_of_outcome? hfuture hanswer with hsent | htimeout
    · cases hfirst : firstAttempt ops with
      | some first => simpa [sent, hfirst] using hsent
      | none => simp [sent, hfirst] at hsent
    · cases htimeout

/-- A command that ends twice before its future is asked a second time. -/
theorem second_attempt_refused :
    let t := ((issue 9).run [.poll, .fulfill 7, .dropCompleter]).2
    let s := ((issue 9).run [.poll, .fulfill 7]).2
    (s.perform (.fail .timeout)).1 = .completion (.error ⟨9, .fulfilled⟩) ∧
      (t.perform .poll).1 = .polled (some (.ok 7)) := by
  have hattempts := (first_attempt_decides 9 [.poll, .fulfill 7]).1
  have hfuture := (first_attempt_decides 9 [.poll, .fulfill 7, .dropCompleter]).2.2.2.1
  exact ⟨hattempts rfl (.fail .timeout) _ rfl, (hfuture (by decide)).2.1⟩

end Ticket

end CommandBridge
