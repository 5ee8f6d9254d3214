import CommandBridge.Proofs.Bridge.Stages

/-!
# What the handlers make of a session

A ledger lists the commands that were run, with their outcomes. This module ties the list to the
handlers: every execution on it is one run of the handler of its command, and no handler is run
besides.

`Session.Course` tells the life of a session without the bridge around it. A handler that is run
adds one execution, with the outcome that it has in the session it meets, and the session goes on as
the handler leaves it. A frame that is built, a step and a change from outside add none. These are
all the ways in which a session changes, so the session of every stage has a course, and the
executions of the course are those of the ledger (`Reachable.course`).

For a single execution there is the stage in which it was made (`Reachable.made`): its command was
the first one in hand there, the executions before it on the ledger had been made, its outcome is
the one that the handler has in the session of that stage, and the later course of the session
begins with what the handler has left.
-/

namespace CommandBridge

variable {σ : Type} [Machine σ]

/-! ### Courses -/

/-- The sessions that a session becomes, with the executions on the way. -/
inductive Session.Course (allowed : (σ → σ) → Prop) (start : Session σ) :
    List Execution → Session σ → Prop
  | refl : Course allowed start [] start
  | handle {xs : List Execution} {s : Session σ} (command : Command) :
      Course allowed start xs s →
      Course allowed start
        (xs ++ [⟨command, outcomeOf ((Session.handle command.request).run s).1⟩])
        ((Session.handle command.request).run s).2
  | nextFrame {xs : List Execution} {s : Session σ} :
      Course allowed start xs s → Course allowed start xs (Session.nextFrame.run s).2
  | step {xs : List Execution} {s : Session σ} (frame : InputFrame) :
      Course allowed start xs s → Course allowed start xs (s.step frame).2
  | outside {xs : List Execution} {s : Session σ} (change : σ → σ) :
      Course allowed start xs s → allowed change →
      Course allowed start xs { s with machine := change s.machine }

namespace Session

variable {allowed : (σ → σ) → Prop} {start s t : Session σ} {xs ys : List Execution}

theorem Course.trans (h : Course allowed start xs s) (h' : Course allowed s ys t) :
    Course allowed start (xs ++ ys) t := by
  induction h' with
  | refl => rwa [List.append_nil]
  | handle command _ ih =>
    rw [← List.append_assoc]
    exact ih.handle command
  | nextFrame _ ih => exact ih.nextFrame
  | step frame _ ih => exact ih.step frame
  | outside change _ hallowed ih => exact ih.outside change hallowed

/-- From any moment on, the executions that are added are those of a course. -/
theorem course_invariant (allowed : (σ → σ) → Prop) (past : List Execution) (start : Session σ) :
    SessionInvariant allowed fun history s =>
      ∃ xs, history = past ++ xs ∧ Course allowed start xs s where
  handle _ _ command := by
    rintro ⟨xs, rfl, h⟩
    exact ⟨_, List.append_assoc _ _ _, h.handle command⟩
  nextFrame _ _ := fun ⟨xs, hxs, h⟩ => ⟨xs, hxs, h.nextFrame⟩
  step _ _ frame := fun ⟨xs, hxs, h⟩ => ⟨xs, hxs, h.step frame⟩
  outside _ _ change := fun ⟨xs, hxs, h⟩ hallowed => ⟨xs, hxs, h.outside change hallowed⟩

end Session

/-- In every stage, the handlers of the commands that were run have made the session what it is:
each was run once, in the order of the ledger, and no other was. -/
theorem Reachable.course {allowed : (σ → σ) → Prop} {b₀ : Bridge σ} {s : Stage σ}
    (h : Reachable allowed b₀ s) :
    Session.Course allowed b₀.session s.ledger.executed s.bridge.session := by
  obtain ⟨xs, hxs, hcourse⟩ :=
    h.session_invariant (Session.course_invariant allowed [] b₀.session) ⟨[], rfl, .refl⟩
  rwa [hxs, List.nil_append]

/-! ### Single executions -/

namespace Stage

/-- The command that the next move of the ticking side runs, if it runs one, with its outcome. -/
def runsNext (s : Stage σ) : List Execution :=
  match s.place with
  | .running (command :: _) _ _ => [⟨command, (s.bridge.runCommand command).1⟩]
  | _ => []

theorem executed_proceed (s : Stage σ) :
    s.proceed.ledger.executed = s.ledger.executed ++ s.runsNext := by
  obtain ⟨b, place, l⟩ := s
  match place with
  | .idle => simp [proceed, runsNext]
  | .running (command :: rest) outcomes deferred => rfl
  | .running [] outcomes deferred =>
    simp only [proceed, runsNext, List.append_nil]
    split <;> rfl
  | .stepping o => simp [proceed, runsNext]

/-- The next move takes the session along a course. -/
theorem course_proceed (allowed : (σ → σ) → Prop) (s : Stage σ) :
    Session.Course allowed s.bridge.session s.runsNext s.proceed.bridge.session := by
  obtain ⟨xs, hxs, hcourse⟩ :=
    (Session.course_invariant allowed s.ledger.executed s.bridge.session).proceed
      (s := s) ⟨[], (List.append_nil _).symm, .refl⟩
  rw [s.executed_proceed] at hxs
  rwa [List.append_cancel_left hxs]

/-- The next move makes the execution: it runs the handler of the command that is first in hand. -/
structure Makes (s : Stage σ) (x : Execution) : Prop where
  inHand_eq : ∃ rest, s.place.inHand = x.command :: rest
  /-- The outcome is the one that the handler has in this session. -/
  outcome_eq : x.outcome = outcomeOf ((Session.handle x.command.request).run s.bridge.session).1
  /-- The session is left as the handler leaves it. -/
  session_eq : s.proceed.bridge.session =
    ((Session.handle x.command.request).run s.bridge.session).2
  executed_eq : s.proceed.ledger.executed = s.ledger.executed ++ [x]

theorem makes_of_mem {s : Stage σ} {x : Execution} (h : x ∈ s.runsNext) :
    s.Makes x ∧ s.runsNext = [x] := by
  obtain ⟨b, place, l⟩ := s
  match place with
  | .idle => cases h
  | .running (command :: rest) outcomes deferred =>
    rw [List.mem_singleton.mp h]
    exact ⟨⟨⟨rest, rfl⟩, rfl, rfl, rfl⟩, rfl⟩
  | .running [] outcomes deferred => cases h
  | .stepping o => cases h

end Stage

/-- Every execution on the ledger was made by a move, after those before it. -/
theorem Reachable.made {allowed : (σ → σ) → Prop} {b₀ : Bridge σ} {s : Stage σ}
    (h : Reachable allowed b₀ s) {before after : List Execution} {x : Execution}
    (hsplit : s.ledger.executed = before ++ x :: after) :
    ∃ t, Reachable allowed b₀ t ∧ t.ledger.executed = before ∧ t.Makes x ∧
      Session.Course allowed t.proceed.bridge.session after s.bridge.session := by
  induction h generalizing after with
  | opened =>
    exact absurd hsplit (List.append_ne_nil_of_right_ne_nil _ (List.cons_ne_nil _ _)).symm
  | submit request _ ih =>
    rw [Stage.executed_submit] at hsplit
    exact ih hsplit
  | useFuture id use _ ih => exact ih hsplit
  | @proceed s hs ih =>
    rw [s.executed_proceed] at hsplit
    have hmove := s.course_proceed allowed
    cases hnext : s.runsNext with
    | nil =>
      rw [hnext, List.append_nil] at hsplit
      rw [hnext] at hmove
      obtain ⟨t, ht, hbefore, hmakes, hcourse⟩ := ih hsplit
      refine ⟨t, ht, hbefore, hmakes, ?_⟩
      simpa only [List.append_nil] using hcourse.trans hmove
    | cons y ys =>
      obtain ⟨hmakes, hone⟩ := Stage.makes_of_mem (hnext ▸ List.mem_cons_self : y ∈ s.runsNext)
      rw [hone] at hsplit hmove
      -- The move has made the last execution of all, which is `x` or comes after `x`.
      rcases List.eq_nil_or_concat after with rfl | ⟨zs, z, rfl⟩
      · obtain ⟨hbefore, hx⟩ := List.append_inj' hsplit rfl
        cases hx
        exact ⟨s, hs, hbefore, hmakes, .refl⟩
      · rw [List.concat_eq_append, ← List.cons_append, ← List.append_assoc] at hsplit
        obtain ⟨hbefore, hz⟩ := List.append_inj' hsplit rfl
        obtain ⟨t, ht, hbefore, hmakes, hcourse⟩ := ih hbefore
        refine ⟨t, ht, hbefore, hmakes, ?_⟩
        rw [List.concat_eq_append, ← hz]
        exact hcourse.trans hmove
  | close _ _ ih => exact ih hsplit
  | unattended _ ih => exact ih hsplit
  | outside change _ hallowed ih =>
    obtain ⟨t, ht, hbefore, hmakes, hcourse⟩ := ih hsplit
    exact ⟨t, ht, hbefore, hmakes, hcourse.outside change hallowed⟩

end CommandBridge
