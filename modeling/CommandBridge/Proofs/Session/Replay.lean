import CommandBridge.Proofs.Session.Simulation

/-!
# Sessions without pauses

Pausing does nothing but keep the machine from being stepped. Whether a session is paused is
invisible to every request but those that pause, resume or ask for the status
(`Session.alike_handle_unpaused`), and these three change nothing else
(`Session.unpaused_handle_of_control`).

So what a session has become can be computed without them: `Session.replay` runs the other requests
of each tick and steps the machine after each tick, as a session does that is never paused.
-/

namespace CommandBridge

open CommandBridge.Action

namespace Session

variable {σ α : Type}

/-- The session, but not paused. -/
def unpaused (s : Session σ) : Session σ := { s with paused := false }

/-- The second session is the first one, but not paused. -/
def Unpauses (s t : Session σ) : Prop := s.unpaused = t

/-! ### Requests that cannot see the pause flag -/

theorem alike_onMachine_unpaused (x : Action σ α) :
    Action.Alike Unpauses (onMachine x) (onMachine x) := by
  rintro s _ rfl
  exact ⟨rfl, rfl⟩

theorem alike_changeOverlay_unpaused {c : Channel}
    {change : Session σ → Except Misuse (Option Tick × OverlaySet)}
    (h : ∀ s, change s.unpaused = change s) :
    Action.Alike Unpauses (changeOverlay c change) (changeOverlay c change) := by
  rintro s _ rfl
  rw [Action.run, Action.run, changeOverlay, changeOverlay, h]
  cases change s <;> exact ⟨rfl, rfl⟩

theorem alike_useSlot_unpaused (slot : UInt8) (x : Action σ (Except MachineError Unit)) :
    Action.Alike Unpauses (useSlot slot x) (useSlot slot x) := by
  refine (alike_onMachine_unpaused x).bind fun answer => ?_
  cases answer <;> exact .pure _

variable [Machine σ]

theorem alike_access_unpaused (op : MemoryOp) :
    Action.Alike Unpauses (access op : Action (Session σ) _) (access op) := by
  refine .current_bind ?_
  rintro s _ rfl
  exact (alike_onMachine_unpaused _).bind fun _ => .pure _

/-- One case for each request. -/
theorem alike_respond_unpaused {request : Request} (h : request.needsSession = true) :
    Action.Alike Unpauses (respond request : Action (Session σ) _) (respond request) := by
  cases request with
  | readByte a => exact (alike_onMachine_unpaused _).bind fun _ => .pure _
  | readRange start size => exact alike_access_unpaused _
  | writeByte a value => exact alike_access_unpaused _
  | writeRange start data => exact alike_access_unpaused _
  | batch ops =>
    refine .current_bind ?_
    rintro s _ rfl
    exact (alike_onMachine_unpaused _).bind fun _ => .pure _
  | setOverlay c set clear hold => exact alike_changeOverlay_unpaused fun _ => rfl
  | clearOverlay c buttons => exact alike_changeOverlay_unpaused fun _ => rfl
  | setState c buttons hold => exact alike_changeOverlay_unpaused fun _ => rfl
  | inputStatus =>
    refine .current_bind ?_
    rintro s _ rfl
    exact (alike_onMachine_unpaused _).bind fun _ => .pure _
  | pause => cases h
  | resume => cases h
  | status => cases h
  | saveState slot => exact alike_useSlot_unpaused slot _
  | loadState slot => exact alike_useSlot_unpaused slot _

theorem alike_handle_unpaused {request : Request} (h : request.needsSession = true) :
    Action.Alike Unpauses (handle request : Action (Session σ) _) (handle request) := by
  rw [handle, if_pos h]
  refine (alike_onMachine_unpaused _).bind fun loaded => ?_
  cases loaded with
  | true => exact alike_respond_unpaused h
  | false => exact .pure _

theorem alike_nextFrame_unpaused :
    Action.Alike Unpauses (nextFrame : Action (Session σ) _) nextFrame := by
  refine .current_bind ?_
  rintro s _ rfl
  exact (alike_onMachine_unpaused _).bind fun _ => .pure _

/-- Only a step moves the tick. -/
theorem tick_handle (request : Request) (s : Session σ) :
    ((handle request).run s).2.tick = s.tick := by
  have hkeeps : Keeps (fun t : Session σ => t.tick = s.tick) (handle request) :=
    keeps_handle (.of_blind fun _ _ ht => ht) (fun _ _ ht => ht) request fun _ _ _ _ ht _ => ht
  exact hkeeps s rfl

/-! ### Replaying requests -/

/-- Runs requests one after the other. -/
def runAll : List Request → Session σ → List (Outcome Reply) × Session σ
  | [], s => ([], s)
  | request :: rest, s =>
    let r := (handle request).run s
    let rs := runAll rest r.2
    (outcomeOf r.1 :: rs.1, rs.2)

/-- Steps the machine, unless its next frame cannot be built. -/
def advance (s : Session σ) : Session σ :=
  match nextFrame.run s with
  | (.ok frame, t) => (t.step frame).2
  | (.error _, t) => t

/-- What a session has become at the beginning of tick `n`, given the requests of every tick. -/
def replay (requests : Nat → List Request) : (n : Nat) → Session σ → Session σ
  | 0, s => s
  | n + 1, s => advance (runAll (requests n) (replay requests n s)).2

theorem length_runAll (requests : List Request) (s : Session σ) :
    (runAll requests s).1.length = requests.length := by
  induction requests generalizing s with
  | nil => rfl
  | cons request rest ih => rw [runAll, List.length_cons, List.length_cons, ih]

theorem runAll_concat (requests : List Request) (request : Request) (s : Session σ) :
    let r := (handle request).run (runAll requests s).2
    runAll (requests ++ [request]) s = ((runAll requests s).1 ++ [outcomeOf r.1], r.2) := by
  induction requests generalizing s with
  | nil => rfl
  | cons first rest ih => simp [runAll, ih]

/-- Only the requests of earlier ticks matter. -/
theorem replay_congr {requests requests' : Nat → List Request} {n : Nat}
    (h : ∀ m < n, requests m = requests' m) (s : Session σ) :
    replay requests n s = replay requests' n s := by
  induction n with
  | zero => rfl
  | succ n ih =>
    rw [replay, replay, ih fun m hm => h m (by omega), h n (by omega)]

/-! ### Scripted machines -/

/-- Pausing, resuming and asking for the status change nothing but the pause flag. -/
theorem unpaused_handle_of_control {request : Request} (h : request.needsSession = false)
    (s : Session Scripted) : ((handle request).run s).2.unpaused = s.unpaused := by
  cases request with
  | pause => rfl
  | resume => rfl
  | status => rfl
  | _ => cases h

theorem unpaused_step {s : Session Scripted} {frame : InputFrame}
    (h : nextFrame.run s = (.ok frame, s)) : (s.step frame).2.unpaused = s.unpaused.advance := by
  obtain ⟨hframe, hsession⟩ := alike_nextFrame_unpaused s s.unpaused rfl
  rw [h] at hframe hsession
  have hnext : nextFrame.run s.unpaused = (.ok frame, s.unpaused) :=
    Prod.ext hframe.symm hsession.symm
  rw [advance, hnext]
  rfl

end Session

end CommandBridge
