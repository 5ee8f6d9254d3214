import CommandBridge.Proofs.Memory.Interrupted
import CommandBridge.Proofs.Session.Invariants
import CommandBridge.Proofs.Session.Questions
import CommandBridge.Proofs.Session.Replay

/-!
# Inspection leaves no trace

Reading through a bridge has no side effects. The inspection flag is up exactly while bytes are
read, so that a scripted machine never counts a read outside inspection and never touches its latch
(`Scripted.Quiet`), and a request that only asks changes nothing but the count of the reads
(`Session.keeps_of_isReadOnly`), however it ends.

Nobody can see that count: sessions that differ in it alone answer alike
(`Scripted.alike_sameButReads`). So requests that only ask can be left out of what a session runs,
and the others have the same outcomes (`Session.runAll_others`).
-/

namespace CommandBridge

open CommandBridge.Action

/-! ### Requests that only ask -/

/-- Whether a memory operation reads. -/
def MemoryOp.isRead : MemoryOp → Bool
  | .read _ _ => true
  | .write _ _ => false

/-- Whether a request asks for something and is not meant to change anything. -/
def Request.isReadOnly : Request → Bool
  | .readByte _ | .readRange _ _ | .inputStatus | .status => true
  | .batch ops => ops.all (·.isRead)
  | _ => false

/-! ### Machines up to the count of reads -/

namespace Scripted

/-- The machines differ in nothing but the number of reads under inspection. -/
def SameButReads (m n : Scripted) : Prop := { m with inspectedReads := n.inspectedReads } = n

theorem SameButReads.exists_eq {m n : Scripted} (h : SameButReads m n) :
    ∃ reads, n = { m with inspectedReads := reads } := ⟨_, h.symm⟩

theorem alike_of_forall {α : Type} {x : Action Scripted α}
    (h : ∀ m reads, (x.run m).1 = (x.run { m with inspectedReads := reads }).1 ∧
      SameButReads (x.run m).2 (x.run { m with inspectedReads := reads }).2) :
    Action.Alike SameButReads x x := by
  intro m n hmn
  obtain ⟨reads, rfl⟩ := hmn.exists_eq
  exact h m reads

/-- The number of reads under inspection shows in no answer. -/
theorem alike_sameButReads : Machine.Alike SameButReads where
  isLoaded := alike_of_forall fun _ _ => ⟨rfl, rfl⟩
  hasFeature
    | .batteryBacked => alike_of_forall fun _ _ => ⟨rfl, rfl⟩
  rawInput c := alike_of_forall fun _ _ => ⟨rfl, rfl⟩
  step frame := alike_of_forall fun m reads => by
    simp only [Action.run, Machine.step, Scripted.step]
    split <;> exact ⟨rfl, rfl⟩
  peek a := alike_of_forall fun m reads => by
    simp only [Action.run, Machine.peek, Scripted.peek]
    split
    · exact ⟨rfl, rfl⟩
    · split
      · exact ⟨rfl, rfl⟩
      · split <;> exact ⟨rfl, rfl⟩
  poke a value := alike_of_forall fun m reads => by
    simp only [Action.run, Machine.poke, Scripted.poke]
    split <;> exact ⟨rfl, rfl⟩
  setInspection active m n h := by
    obtain ⟨reads, rfl⟩ := h.exists_eq
    rfl
  saveState slot := alike_of_forall fun m reads => by
    simp only [Action.run, Machine.saveState, Scripted.saveState]
    split <;> exact ⟨rfl, rfl⟩
  loadState slot := alike_of_forall fun m reads => by
    simp only [Action.run, Machine.loadState, Scripted.loadState, Scripted.snapshot]
    split
    · split <;> exact ⟨rfl, rfl⟩
    · exact ⟨rfl, rfl⟩
    · exact ⟨rfl, rfl⟩

/-! ### The inspection flag -/

/-- Nobody is inspecting, and nobody has read without inspecting. -/
structure Quiet (m : Scripted) : Prop where
  inspection_eq : m.inspection = false
  uninspectedReads_eq : m.uninspectedReads = 0

/-- What the bridge asks of its machine leaves it quiet. -/
theorem keeps_quiet (map : RegionMap) : Machine.Keeps map Quiet
    fun m => m.inspection = true ∧ m.uninspectedReads = 0 where
  isLoaded _ h := h
  hasFeature
    | .batteryBacked => fun _ h => h
  rawInput _ _ h := h
  step frame m h := by
    simp only [Action.run, Machine.step, Scripted.step]
    split
    · exact h
    · exact ⟨h.inspection_eq, h.uninspectedReads_eq⟩
  raise _ h := ⟨rfl, h.uninspectedReads_eq⟩
  peek a m h := by
    rcases peek_cases a h.1 with ⟨value, hrun⟩ | ⟨p, -, hrun⟩
    · rw [hrun]
      exact h
    · rw [hrun]
      exact h
  lower _ h := ⟨rfl, h.2⟩
  writeRange start data := by
    refine keeps_writeRange ?_ fun _ _ _ _ _ a _ value m h => ?_
    · intro f
      cases f
      exact fun _ h => h
    · simp only [Action.run, Machine.poke, Scripted.poke]
      split
      · exact h
      · exact ⟨h.inspection_eq, h.uninspectedReads_eq⟩
  saveState slot m h := by
    simp only [Action.run, Machine.saveState, Scripted.saveState]
    split
    · exact ⟨h.inspection_eq, h.uninspectedReads_eq⟩
    · exact h
    · exact h
  loadState slot m h := by
    simp only [Action.run, Machine.loadState, Scripted.loadState]
    split
    · split
      · exact ⟨h.inspection_eq, h.uninspectedReads_eq⟩
      · exact h
    · exact h
    · exact h

/-! ### Reads -/

section

variable {n : Scripted}

/-- Under inspection a read is at most counted. -/
theorem keeps_peek (a : Address) :
    Keeps (SameButReads · { n with inspection := true }) (Machine.peek a) := by
  intro m h
  have hinspection : m.inspection = true := congrArg Scripted.inspection h
  rcases peek_cases a hinspection with ⟨value, hrun⟩ | ⟨p, -, hrun⟩
  · rw [hrun]
    exact h
  · rw [hrun]
    exact h

theorem sameButReads_raise {m : Scripted} (h : SameButReads m n) :
    SameButReads (Machine.setInspection true m) { n with inspection := true } :=
  alike_sameButReads.setInspection true m n h

/-- The flag that is raised for a read is lowered again. -/
theorem sameButReads_lower (hn : n.inspection = false) {m : Scripted}
    (h : SameButReads m { n with inspection := true }) :
    SameButReads (Machine.setInspection false m) n := by
  have hlowered := alike_sameButReads.setInspection false _ _ h
  have hn' : Machine.setInspection false { n with inspection := true } = n := by
    rw [← hn]
    rfl
  rwa [hn'] at hlowered

theorem keeps_perform_read (hn : n.inspection = false) (map : RegionMap) {op : MemoryOp}
    (h : op.isRead = true) : Keeps (SameButReads · n) (op.perform map) := by
  cases op with
  | read start size =>
    have hread : Keeps (SameButReads · n) (readRange start size) :=
      keeps_readRange (Q := (SameButReads · { n with inspection := true }))
        (fun _ => sameButReads_raise) keeps_peek (fun _ => sameButReads_lower hn) start size
    exact hread.bind fun _ => .pure _
  | write start data => cases h

theorem keeps_performAll_read (hn : n.inspection = false) (map : RegionMap) {ops : List MemoryOp}
    (h : ops.all (·.isRead) = true) : Keeps (SameButReads · n) (performAll map ops) := by
  induction ops with
  | nil => exact .pure _
  | cons op rest ih =>
    rw [List.all_cons, Bool.and_eq_true] at h
    exact (keeps_perform_read hn map h.1).bind fun _ => (ih h.2).bind fun _ => .pure _

end

end Scripted

/-! ### Sessions -/

namespace Session

/-- The sessions differ in nothing but the number of reads under inspection. -/
def SameButReads (s t : Session Scripted) : Prop :=
  { s with machine := { s.machine with inspectedReads := t.machine.inspectedReads } } = t

theorem sameButReads_iff {s t : Session Scripted} :
    SameButReads s t ↔ Alike Scripted.SameButReads s t := by
  constructor
  · intro h
    rw [SameButReads] at h
    rw [← h]
    exact ⟨rfl, rfl, rfl, rfl, rfl, rfl⟩
  · rintro ⟨hmachine, hoverlays, htick, hpaused, hregions, hrate⟩
    rw [Scripted.SameButReads] at hmachine
    rw [SameButReads, hmachine, hoverlays, htick, hpaused, hregions, hrate]

/-- Sessions that differ from a third one in nothing but the number of reads. -/
theorem SameButReads.of_common {s t u : Session Scripted} (hs : s.SameButReads u)
    (ht : t.SameButReads u) : s.SameButReads t := by
  have h := congrArg (fun v : Session Scripted =>
    { v with machine := { v.machine with inspectedReads := t.machine.inspectedReads } })
    (Eq.trans hs ht.symm)
  exact h

theorem quiet_invariant (map : RegionMap) :
    SessionInvariant (fun change => ∀ m, Scripted.Quiet m → (change m).Quiet)
      fun _ s => s.regions = map ∧ s.machine.Quiet :=
  .of_machine (Scripted.keeps_quiet map) fun _ m hchange => hchange m

theorem quiet_handle {s : Session Scripted} (h : s.machine.Quiet) (request : Request) :
    ((handle request).run s).2.machine.Quiet :=
  ((quiet_invariant s.regions).handle [] s ⟨0, request, .zero⟩ ⟨rfl, h⟩).2

theorem quiet_advance {s : Session Scripted} (h : s.machine.Quiet) :
    (advance s).machine.Quiet := by
  have hsame := Scripted.discreet.nextFrame_snd s
  rw [advance]
  rcases hnext : nextFrame.run s with ⟨p | frame, t⟩
  · rw [hnext] at hsame
    rwa [← hsame] at h
  · rw [hnext] at hsame
    rw [← hsame] at h
    exact ((quiet_invariant t.regions).step [] t frame ⟨rfl, h⟩).2

variable {t : Session Scripted}

theorem keeps_onMachine_read {α : Type} {x : Action Scripted α}
    (hx : Keeps (Scripted.SameButReads · t.machine) x) :
    Keeps (Alike Scripted.SameButReads · t) (onMachine x) :=
  .onPart _ fun _ hs =>
    ⟨hx _ hs.machine, hs.overlays_eq, hs.tick_eq, hs.paused_eq, hs.regions_eq, hs.tickRate_eq⟩

theorem keeps_respond_of_isReadOnly (ht : t.machine.inspection = false) {request : Request}
    (h : request.isReadOnly = true) :
    Keeps (Alike Scripted.SameButReads · t) (respond request) := by
  cases request with
  | readByte a =>
    have hread : Keeps (Scripted.SameButReads · t.machine) (readByte a) :=
      keeps_inspecting (Q := (Scripted.SameButReads · { t.machine with inspection := true }))
        (fun _ => Scripted.sameButReads_raise) (fun _ => Scripted.sameButReads_lower ht)
        (Scripted.keeps_peek a)
    exact (keeps_onMachine_read hread).bind fun _ => .pure _
  | readRange start size =>
    exact .current_bind fun s => (keeps_onMachine_read
      (Scripted.keeps_perform_read ht s.regions rfl)).bind (fun _ => .pure _) s
  | batch ops =>
    exact .current_bind fun s => (keeps_onMachine_read
      (Scripted.keeps_performAll_read ht s.regions h)).bind (fun _ => .pure _) s
  | inputStatus =>
    exact .current_bind fun s => (keeps_onMachine_read
      (Scripted.keeps_rawInputs s.overlays.channels)).bind (fun _ => .pure _) s
  | status => exact fun _ hs => hs
  | _ => cases h

/-- A request that only asks changes nothing but the number of reads. -/
theorem keeps_of_isReadOnly (ht : t.machine.inspection = false) {request : Request}
    (h : request.isReadOnly = true) :
    Keeps (Alike Scripted.SameButReads · t) (handle request) := by
  have hrespond := keeps_respond_of_isReadOnly ht h
  rw [handle]
  split
  · have hloaded : Keeps (Scripted.SameButReads · t.machine) Machine.isLoaded := fun _ hm => hm
    refine (keeps_onMachine_read hloaded).bind fun loaded => ?_
    cases loaded with
    | true => exact hrespond
    | false => exact .pure _
  · exact hrespond

/-! ### Leaving out what only asks -/

theorem alike_advance {s : Session Scripted} (h : Alike Scripted.SameButReads s t) :
    Alike Scripted.SameButReads (advance s) (advance t) := by
  obtain ⟨hanswer, hrelated⟩ := alike_nextFrame Scripted.alike_sameButReads s t h
  rw [advance, advance]
  rcases hs : nextFrame.run s with ⟨p | frame, s'⟩
  · rcases ht : nextFrame.run t with ⟨q | frame', t'⟩
    · rw [hs, ht] at hrelated
      exact hrelated
    · rw [hs, ht] at hanswer
      cases hanswer
  · rcases ht : nextFrame.run t with ⟨q | frame', t'⟩
    · rw [hs, ht] at hanswer
      cases hanswer
    · rw [hs, ht] at hanswer hrelated
      cases hanswer
      exact (alike_step Scripted.alike_sameButReads hrelated frame).2

/-- The executions of requests that do more than ask. -/
def others (xs : List Execution) : List Execution :=
  xs.filter (!·.command.request.isReadOnly)

/-- Without the requests that only ask, the other ones have the same outcomes, and the session
comes to be the same but for the number of reads. -/
theorem runAll_others {xs : List Execution} {s : Session Scripted} (hs : s.machine.Quiet)
    (hst : Alike Scripted.SameButReads s t)
    (houtcomes : xs.map (·.outcome) = (runAll (xs.map (·.command.request)) s).1) :
    (runAll (xs.map (·.command.request)) s).2.machine.Quiet ∧
      Alike Scripted.SameButReads (runAll (xs.map (·.command.request)) s).2
        (runAll ((others xs).map (·.command.request)) t).2 ∧
      (others xs).map (·.outcome) = (runAll ((others xs).map (·.command.request)) t).1 := by
  induction xs generalizing s t with
  | nil => exact ⟨hs, hst, rfl⟩
  | cons x rest ih =>
    obtain ⟨hx, hrest⟩ : x.outcome = outcomeOf ((handle x.command.request).run s).1 ∧
        rest.map (·.outcome) = _ := List.cons.inj houtcomes
    have hnext := quiet_handle hs x.command.request
    cases hread : x.command.request.isReadOnly with
    | true =>
      have hothers : others (x :: rest) = others rest :=
        List.filter_cons_of_neg (by simp [hread])
      have ht : t.machine.inspection = false :=
        (congrArg Scripted.inspection hst.machine).symm.trans hs.inspection_eq
      rw [hothers]
      exact ih hnext (keeps_of_isReadOnly ht hread s hst) hrest
    | false =>
      have hothers : others (x :: rest) = x :: others rest :=
        List.filter_cons_of_pos (by simp [hread])
      obtain ⟨hanswer, hrelated⟩ :=
        alike_handle Scripted.alike_sameButReads x.command.request s t hst
      obtain ⟨hquiet, halike, heq⟩ := ih hnext hrelated hrest
      rw [hothers]
      refine ⟨hquiet, halike, ?_⟩
      rw [List.map_cons, List.map_cons, runAll, hx, hanswer, heq]

end Session

end CommandBridge
