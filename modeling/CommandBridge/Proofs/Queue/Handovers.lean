import CommandBridge.Proofs.Queue.TicketRuns
import Mathlib.Data.List.Induction

/-!
# What a future hands out

A future is meant to hand out one outcome. There are three ways to get it, by polling and by two
kinds of waiting, and they can be mixed. This module says which mixtures keep to one outcome
(`Ticket.handed_at_most_once_iff`): all but those in which somebody polls with success and waits
afterwards. The wait consumes a future whose slot is empty for good, so it hands out the error of an
abandoned command, after the command's own outcome.

`Handover` lists what an operation can do to a future, given what was sent. `Ticket.Handed` is the
invariant over a list of operations that grows at its end; it follows from one operation
(`Ticket.Follows.handover`) by the cases of that list.
-/

namespace CommandBridge

variable {α : Type}

namespace TicketOp

def waits : TicketOp α → Bool
  | wait | waitBlocking => true
  | _ => false

/-- What was sent stays sent. -/
theorem sent_concat {ops : List (TicketOp α)} {outcome : Outcome α} (h : sent ops = some outcome)
    (op : TicketOp α) : sent (ops ++ [op]) = some outcome := by
  simp only [sent, firstAttempt_concat, completerDropped_concat] at h ⊢
  cases hfirst : firstAttempt ops with
  | some first => simpa [hfirst] using h
  | none =>
    cases hdropped : completerDropped ops <;> simp_all

end TicketOp

namespace TicketAnswer

/-- The outcome that an answer hands out. Having waited long enough is no outcome. -/
def final? : TicketAnswer α → Option (Outcome α)
  | waited (.error .timeout) => none
  | answer => answer.outcome?

/-- Whether the future is gone after the answer. -/
def consumes : TicketAnswer α → Bool
  | waited _ | futureDropped => true
  | _ => false

/-- The outcomes that a list of answers hands out, in order. -/
def handed (answers : List (TicketAnswer α)) : List (Outcome α) := answers.filterMap final?

/-- The outcome was taken by polling, and the future is still held. -/
def TakenByPoll (answers : List (TicketAnswer α)) : Prop :=
  (∃ outcome, .polled (some outcome) ∈ answers) ∧ ∀ a ∈ answers, a.consumes = false

theorem handed_concat (answers : List (TicketAnswer α)) (a : TicketAnswer α) :
    handed (answers ++ [a]) = handed answers ++ a.final?.toList := by
  cases h : a.final? <;> simp [handed, h]

theorem final?_eq_none_of_outcome? {a : TicketAnswer α} (h : a.outcome? = none) :
    a.final? = none := by
  unfold final?
  split
  · rfl
  · exact h

theorem final?_waited {outcome o : Outcome α} (h : (waited outcome).final? = some o) :
    outcome = o := by
  unfold final? at h
  split at h
  · cases h
  · exact Option.some.inj h

theorem handed_ne_nil {answers : List (TicketAnswer α)} (h : TakenByPoll answers) :
    handed answers ≠ [] := by
  obtain ⟨⟨outcome, hmem⟩, -⟩ := h
  exact List.ne_nil_of_mem (List.mem_filterMap.mpr ⟨_, hmem, rfl⟩)

theorem takenByPoll_concat_of_final?_eq_none {a : TicketAnswer α} (hfinal : a.final? = none)
    (hconsumes : a.consumes = false) (answers : List (TicketAnswer α)) :
    TakenByPoll (answers ++ [a]) ↔ TakenByPoll answers := by
  have hpolled : ∀ outcome, .polled (some outcome) ≠ a := by
    rintro outcome rfl
    cases hfinal
  simp [TakenByPoll, hpolled, or_imp, forall_and, hconsumes]

end TicketAnswer

namespace Ticket

open TicketOp TicketAnswer

theorem run_concat (t : Ticket α) (ops : List (TicketOp α)) (op : TicketOp α) :
    t.run (ops ++ [op]) =
      ((t.run ops).1 ++ [((t.run ops).2.perform op).1], ((t.run ops).2.perform op).2) := by
  induction ops generalizing t with
  | nil => rfl
  | cons first rest ih => simp [run, ih]

theorem ifHeld_of_held {t : Ticket α} (h : t.future ≠ .gone)
    (effect : TicketAnswer α × Ticket α) : t.ifHeld effect = effect :=
  if_neg h

/-! ### One operation -/

/-- What an operation can do to the future of a ticket, given what was sent: the future before, the
operation with its answer, and the future after it. -/
inductive Handover (sent : Option (Outcome α)) :
    Future → TicketOp α → TicketAnswer α → Future → Prop
  | nothing {f : Future} {op : TicketOp α} {a : TicketAnswer α} (hfinal : a.final? = none)
      (hconsumes : a.consumes = false) (hwaits : op.waits = true → f ≠ .taken) :
      Handover sent f op a f
  | take {outcome : Outcome α} (hsent : sent = some outcome) :
      Handover sent .waiting .poll (.polled (some outcome)) .taken
  | wait {op : TicketOp α} {a : TicketAnswer α} (hconsumes : a.consumes = true)
      (hfinal : ∀ outcome, a.final? = some outcome → sent = some outcome) :
      Handover sent .waiting op a .gone
  | drop : Handover sent .taken .dropFuture .futureDropped .gone
  /-- Waiting for an outcome that was taken already. -/
  | waitAgain {op : TicketOp α} (hwaits : op.waits = true) :
      Handover sent .taken op (.waited (.error (.internal .abandoned))) .gone

theorem consumes_attempt (t : Ticket α) (outcome : Outcome α) :
    (t.attempt outcome).1.consumes = false := by
  rw [attempt]
  split <;> rfl

/-- Operations of the completer do nothing to the future. -/
theorem handover_attempt (t : Ticket α) {op : TicketOp α} {outcome : Outcome α}
    (h : op.attempt? = some outcome) (sent : Option (Outcome α)) :
    Handover sent t.future op (t.perform op).1 (t.perform op).2.future := by
  rw [perform_of_attempt h, future_attempt]
  refine .nothing (final?_eq_none_of_outcome? (outcome?_attempt t outcome))
    (t.consumes_attempt outcome) ?_
  cases op <;> simp [waits, attempt?] at h ⊢

theorem handover_dropCompleter (t : Ticket α) (sent : Option (Outcome α)) :
    Handover sent t.future .dropCompleter (t.perform .dropCompleter).1
      (t.perform .dropCompleter).2.future := by
  rw [perform]
  split
  · exact .nothing rfl rfl (by simp [waits])
  · rw [future_dropCompleter]
    exact .nothing rfl rfl (by simp [waits])

/-- A future that is gone stays gone. -/
theorem handover_of_gone {t : Ticket α} (h : t.future = .gone) {op : TicketOp α}
    (hattempt : op.attempt? = none) (hdrops : op.dropsCompleter = false)
    (sent : Option (Outcome α)) :
    Handover sent t.future op (t.perform op).1 (t.perform op).2.future := by
  have hanswer : t.perform op = (.gone, t) := by
    cases op with
    | isReady | poll | wait | waitBlocking | dropFuture => simp [perform, ifHeld, h]
    | dropCompleter => cases hdrops
    | _ => cases hattempt
  rw [hanswer]
  exact .nothing rfl rfl (by simp [h])

/-- A future whose outcome was taken answers a wait with the error of an abandoned command: its slot
is empty, and the completer has nothing left to deliver. -/
theorem Follows.peek_of_taken {id : Nat} {ops : List (TicketOp α)} {t : Ticket α}
    (h : Follows id ops t) (hfuture : t.future = .taken) :
    t.peek = some (.error (.internal .abandoned)) := by
  have hslot : t.slot = none := by simp [h.slot_eq, hfuture]
  have hsent := h.sent_of_taken hfuture
  have hused : t.completer ≠ .ready := by
    rw [h.completer_eq]
    simp only [sent] at hsent
    cases hfirst : firstAttempt ops <;> cases hdropped : completerDropped ops <;> simp_all
  simp [peek, hslot, hused]

namespace Follows

variable {id : Nat} {ops : List (TicketOp α)} {t : Ticket α} {op : TicketOp α}

theorem handover_of_taken (h : Follows id ops t) (hfuture : t.future = .taken)
    (hattempt : op.attempt? = none) (hdrops : op.dropsCompleter = false) :
    Handover (sent ops) .taken op (t.perform op).1 (t.perform op).2.future := by
  have hheld := ifHeld_of_held (t := t) (by simp [hfuture])
  have hwait : t.wait.1 = .error (.internal .abandoned) := by
    rw [Ticket.wait, h.peek_of_taken hfuture]
    rfl
  cases op with
  | isReady =>
    simp only [Ticket.perform, hheld, hfuture]
    exact .nothing rfl rfl (by simp [waits])
  | poll =>
    simp only [Ticket.perform, hheld, t.poll_taken hfuture, hfuture]
    exact .nothing rfl rfl (by simp [waits])
  | wait =>
    simp only [Ticket.perform, hheld, hwait]
    exact .waitAgain rfl
  | waitBlocking =>
    have hblocks : t.blocks = false := by simp [blocks, hfuture]
    simp only [Ticket.perform, hheld, hblocks, Bool.false_eq_true, ↓reduceIte, hwait]
    exact .waitAgain rfl
  | dropFuture =>
    simp only [Ticket.perform, hheld]
    exact .drop
  | dropCompleter => cases hdrops
  | _ => cases hattempt

theorem handover_of_waiting (h : Follows id ops t) (hfuture : t.future = .waiting)
    (hattempt : op.attempt? = none) (hdrops : op.dropsCompleter = false) :
    Handover (sent ops) .waiting op (t.perform op).1 (t.perform op).2.future := by
  have hheld := ifHeld_of_held (t := t) (by simp [hfuture])
  have hfinal : ∀ outcome, (TicketAnswer.waited t.wait.1).final? = some outcome →
      sent ops = some outcome := by
    intro outcome hwaited
    rw [Ticket.wait, h.peek_eq hfuture] at hwaited
    cases hsent : sent ops with
    | none =>
      rw [hsent] at hwaited
      cases hwaited
    | some first =>
      rw [hsent] at hwaited
      exact congrArg some (final?_waited hwaited)
  cases op with
  | isReady =>
    simp only [Ticket.perform, hheld, hfuture]
    exact .nothing rfl rfl (by simp [waits])
  | poll =>
    simp only [Ticket.perform, hheld, Ticket.poll, hfuture, h.peek_eq hfuture]
    cases hsent : sent ops with
    | none =>
      simp only [hfuture]
      exact .nothing rfl rfl (by simp [waits])
    | some outcome => exact .take rfl
  | wait =>
    simp only [Ticket.perform, hheld]
    exact .wait rfl hfinal
  | waitBlocking =>
    simp only [Ticket.perform, hheld]
    split
    · rw [hfuture]
      exact .nothing rfl rfl (by simp)
    · exact .wait rfl hfinal
  | dropFuture =>
    simp only [Ticket.perform, hheld]
    exact .wait rfl (by simp [final?, outcome?])
  | dropCompleter => cases hdrops
  | _ => cases hattempt

end Follows

/-- What an operation does to the future. -/
theorem Follows.handover {id : Nat} {ops : List (TicketOp α)} {t : Ticket α}
    (h : Follows id ops t) (op : TicketOp α) :
    Handover (sent ops) t.future op (t.perform op).1 (t.perform op).2.future := by
  cases hattempt : op.attempt? with
  | some outcome => exact t.handover_attempt hattempt _
  | none =>
    cases hdrops : op.dropsCompleter with
    | true =>
      cases op <;> cases hdrops
      exact t.handover_dropCompleter _
    | false =>
      cases hfuture : t.future with
      | gone =>
        rw [← hfuture]
        exact handover_of_gone hfuture hattempt hdrops _
      | waiting => exact h.handover_of_waiting hfuture hattempt hdrops
      | taken => exact h.handover_of_taken hfuture hattempt hdrops

/-! ### Many operations -/

/-- Somebody waits on a future after its outcome was taken by polling. -/
def WaitsAfterPoll (t : Ticket α) (ops : List (TicketOp α)) : Prop :=
  ∃ before op after, ops = before ++ op :: after ∧ op.waits = true ∧ TakenByPoll (t.run before).1

theorem waitsAfterPoll_concat (t : Ticket α) (ops : List (TicketOp α)) (op : TicketOp α) :
    t.WaitsAfterPoll (ops ++ [op]) ↔
      t.WaitsAfterPoll ops ∨ (op.waits = true ∧ TakenByPoll (t.run ops).1) := by
  constructor
  · rintro ⟨before, op', after, hsplit, hwaits, htaken⟩
    rcases List.eq_nil_or_concat after with rfl | ⟨after', last, rfl⟩
    · obtain ⟨rfl, hop⟩ := List.append_inj' hsplit rfl
      obtain rfl : op = op' := List.singleton_inj.mp hop
      exact .inr ⟨hwaits, htaken⟩
    · rw [List.concat_eq_append, ← List.cons_append, ← List.append_assoc] at hsplit
      exact .inl ⟨before, op', after', (List.append_inj' hsplit rfl).1, hwaits, htaken⟩
  · rintro (⟨before, op', after, rfl, hwaits, htaken⟩ | ⟨hwaits, htaken⟩)
    · exact ⟨before, op', after ++ [op], by simp, hwaits, htaken⟩
    · exact ⟨ops, op, [], rfl, hwaits, htaken⟩

/-- What the answers so far have handed out, and where that leaves the future; `twice` says whether
somebody has waited after polling. -/
structure Handed (sent : Option (Outcome α)) (twice : Prop) (answers : List (TicketAnswer α))
    (f : Future) : Prop where
  waiting : f = .waiting → handed answers = []
  taken_iff : f = .taken ↔ TakenByPoll answers
  gone_iff : f = .gone ↔ ∃ a ∈ answers, a.consumes = true
  of_not_twice : ¬ twice → handed answers = [] ∨
    ∃ outcome, sent = some outcome ∧ handed answers = [outcome]
  of_twice : twice → f = .gone ∧
    ∃ outcome, sent = some outcome ∧ handed answers = [outcome, .error (.internal .abandoned)]

namespace Handed

variable {s s' : Option (Outcome α)} {twice : Prop} {answers : List (TicketAnswer α)}
  {f f' : Future} {op : TicketOp α} {a : TicketAnswer α}

theorem nil (s : Option (Outcome α)) : Handed s False [] .waiting where
  waiting _ := rfl
  taken_iff := by simp [TakenByPoll]
  gone_iff := by simp
  of_not_twice _ := .inl rfl
  of_twice h := h.elim

/-- Before the future is gone, nothing was handed out twice. -/
theorem not_twice (h : Handed s twice answers f) (hf : f ≠ .gone) : ¬ twice :=
  fun htwice => hf (h.of_twice htwice).1

/-- The future is consumed. -/
theorem consume (hconsumes : a.consumes = true)
    (hnot : ¬ twice → handed (answers ++ [a]) = [] ∨
      ∃ outcome, s = some outcome ∧ handed (answers ++ [a]) = [outcome])
    (htwice : twice → ∃ outcome, s = some outcome ∧
      handed (answers ++ [a]) = [outcome, .error (.internal .abandoned)]) :
    Handed s twice (answers ++ [a]) .gone where
  waiting hf := by cases hf
  taken_iff := by
    refine iff_of_false (by simp) fun htaken => ?_
    have hkept := htaken.2 a (by simp)
    rw [hconsumes] at hkept
    cases hkept
  gone_iff := iff_of_true rfl ⟨a, by simp, hconsumes⟩
  of_not_twice := hnot
  of_twice h := ⟨rfl, htwice h⟩

/-- One operation more. -/
theorem concat (h : Handed s twice answers f) (hstep : Handover s f op a f')
    (hsent : ∀ outcome, s = some outcome → s' = some outcome) :
    Handed s' (twice ∨ op.waits = true ∧ TakenByPoll answers) (answers ++ [a]) f' := by
  have honce : ¬ twice → handed answers = [] ∨
      ∃ outcome, s' = some outcome ∧ handed answers = [outcome] := by
    intro hnot
    rcases h.of_not_twice hnot with hnone | ⟨outcome, hs, hone⟩
    · exact .inl hnone
    · exact .inr ⟨outcome, hsent outcome hs, hone⟩
  cases hstep with
  | nothing hfinal hconsumes hwaits =>
    have hhanded : handed (answers ++ [a]) = handed answers := by
      simp [handed_concat, hfinal]
    have htwice : (twice ∨ op.waits = true ∧ TakenByPoll answers) ↔ twice := by
      rw [← h.taken_iff]
      exact or_iff_left fun ⟨hop, hf⟩ => hwaits hop hf
    rw [propext htwice]
    refine ⟨?_, ?_, ?_, ?_, ?_⟩
    · rw [hhanded]
      exact h.waiting
    · rw [takenByPoll_concat_of_final?_eq_none hfinal hconsumes]
      exact h.taken_iff
    · rw [h.gone_iff]
      simp [hconsumes]
    · rw [hhanded]
      exact honce
    · rw [hhanded]
      intro ht
      obtain ⟨hf, outcome, hs, htwo⟩ := h.of_twice ht
      exact ⟨hf, outcome, hsent outcome hs, htwo⟩
  | @take outcome hs =>
    have hkept : ∀ x ∈ answers, x.consumes = false := by
      simpa using h.gone_iff
    have hhanded : handed (answers ++ [.polled (some outcome)]) = [outcome] := by
      rw [handed_concat, h.waiting rfl]
      rfl
    refine ⟨by simp, ?_, ?_, ?_, ?_⟩
    · refine iff_of_true rfl ⟨⟨outcome, by simp⟩, ?_⟩
      simpa [or_imp, forall_and, consumes] using hkept
    · refine iff_of_false (by simp) ?_
      simpa [consumes] using hkept
    · exact fun _ => .inr ⟨outcome, hsent outcome hs, hhanded⟩
    · intro ht
      simp [h.not_twice, waits] at ht
  | wait hconsumes hfinal =>
    have hnot : ¬ (twice ∨ op.waits = true ∧ TakenByPoll answers) := by
      rw [← h.taken_iff]
      simp [h.not_twice]
    refine consume hconsumes (fun _ => ?_) fun ht => absurd ht hnot
    rw [handed_concat, h.waiting rfl]
    cases hanswer : a.final? with
    | none => exact .inl rfl
    | some outcome => exact .inr ⟨outcome, hsent outcome (hfinal outcome hanswer), rfl⟩
  | drop =>
    have hnot : ¬ (twice ∨ (TicketOp.dropFuture : TicketOp α).waits = true ∧ TakenByPoll answers) := by
      simp [h.not_twice, waits]
    refine consume rfl (fun _ => ?_) fun ht => absurd ht hnot
    rw [handed_concat]
    simpa [final?, outcome?] using honce (h.not_twice (by simp))
  | waitAgain hwaits =>
    have htaken : TakenByPoll answers := h.taken_iff.mp rfl
    refine consume rfl (fun hnot => absurd (.inr ⟨hwaits, htaken⟩) hnot) fun _ => ?_
    rcases honce (h.not_twice (by simp)) with hnone | ⟨outcome, hs, hone⟩
    · exact absurd hnone (handed_ne_nil htaken)
    · refine ⟨outcome, hs, ?_⟩
      rw [handed_concat, hone]
      rfl

/-- Along any list of operations on a new ticket. -/
theorem run (id : Nat) (ops : List (TicketOp α)) :
    Handed (sent ops) ((Ticket.issue id).WaitsAfterPoll ops) ((Ticket.issue id).run ops).1
      ((Ticket.issue id).run ops).2.future := by
  induction ops using List.reverseRecOn with
  | nil =>
    have hnot : ¬ (Ticket.issue id : Ticket α).WaitsAfterPoll [] := by
      rintro ⟨before, op, after, hsplit, -⟩
      simp at hsplit
    rw [eq_false hnot]
    exact .nil _
  | append_singleton ops op ih =>
    rw [run_concat, propext (waitsAfterPoll_concat _ ops op)]
    exact ih.concat (((Follows.issue id).run ops).handover op) fun _ hs => sent_concat hs op

end Handed

/-- A future hands out at most one outcome exactly if nobody waits on it after its outcome was taken
by polling. The first outcome is what was sent. Who does wait after polling is handed a second
outcome, the error of an abandoned command. -/
theorem handed_at_most_once_iff (id : Nat) (ops : List (TicketOp α)) :
    let outcomes := handed ((issue id).run ops).1
    (outcomes.length ≤ 1 ↔ ¬ (issue id).WaitsAfterPoll ops) ∧
    (∀ outcome ∈ outcomes.head?, sent ops = some outcome) ∧
    ((issue id).WaitsAfterPoll ops → outcomes.tail = [.error (.internal .abandoned)]) := by
  have h := Handed.run id ops
  by_cases htwice : (issue id).WaitsAfterPoll ops
  · obtain ⟨-, outcome, hsent, houtcomes⟩ := h.of_twice htwice
    simp [houtcomes, htwice, hsent]
  · rcases h.of_not_twice htwice with hnone | ⟨outcome, hsent, houtcomes⟩
    · simp [hnone, htwice]
    · simp [houtcomes, htwice, hsent]

/-- A command that has ended, whose future is polled and then waited on. -/
theorem not_handed_at_most_once :
    ¬ ∀ (id : Nat) (ops : List (TicketOp Nat)), (handed ((issue id).run ops).1).length ≤ 1 := by
  intro h
  have htwo : handed ((issue 9).run [.fulfill 7, .poll, .wait]).1 =
      [.ok 7, .error (.internal .abandoned)] := rfl
  simpa [htwo] using h 9 [.fulfill 7, .poll, .wait]

end Ticket

end CommandBridge
