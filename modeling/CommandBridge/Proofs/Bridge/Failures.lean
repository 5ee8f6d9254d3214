import CommandBridge.Proofs.Bridge.Opening
import CommandBridge.Proofs.Bridge.Stages
import CommandBridge.Proofs.Memory.Interrupted
import CommandBridge.Proofs.Session.Replay

/-!
# What a failing command leaves behind

A command whose handler answers with an error has changed nothing at all. One whose handler
panics has changed the machine only, and there it has done a prefix of its work
(`Session.CutShort`). Both are read off one statement about how a handler ends, `Session.Ended`,
which has a case for each way.

The commands after it never find out. What running commands does to the session is a function of
the session and of the requests alone (`Bridge.runCommands_congr`), so the rest of a tick goes on
as it would in a tick of its own.

The inspection flag is lowered by reads and left alone by everything else. So it is down after a
failure if it was down before, but a failing write does not lower a flag that somebody else has
raised (`Bridge.raised_flag_survives_failure`).
-/

namespace CommandBridge

open CommandBridge.Action

/-- The memory operation that a request by itself is. -/
def Request.memoryOp? : Request → Option MemoryOp
  | .readByte a => some (.read a 1)
  | .readRange start size => some (.read start size)
  | .writeByte a value => some (.write a [value])
  | .writeRange start data => some (.write start data)
  | _ => none

namespace Session

/-! ### How handlers end -/

/-- The handler of the request has panicked and has left the machine in a state. -/
inductive CutShort (s : Session Scripted) : Request → Scripted → Prop
  /-- A read or a write has panicked at one of its bytes. -/
  | access {request : Request} {op : MemoryOp} {left : Scripted} :
      request.memoryOp? = some op → op.CutShort s.machine left → CutShort s request left
  /-- One of the operations of a batch has. -/
  | batch {ops : List MemoryOp} {left : Scripted} :
      MemoryOp.AnyCutShort s.regions ops s.machine left → CutShort s (.batch ops) left
  /-- The machine has panicked when it was asked for the input of a channel. -/
  | rawInput {c : Channel} : c ∈ s.overlays.channels →
      s.machine.faults.panicRaw = some c → CutShort s .inputStatus s.machine

/-- The ways in which the handler of a request ends. -/
inductive Ended (s : Session Scripted) (request : Request) :
    Except Panic (Outcome Reply) × Session Scripted → Prop
  | replied (reply : Reply) (s' : Session Scripted) : Ended s request (.ok (.ok reply), s')
  | refused (e : CommandError) : Ended s request (.ok (.error e), s)
  | panicked (p : Panic) {left : Scripted} : s.CutShort request left →
      Ended s request (.error p, { s with machine := left })

theorem ended_readOne (a : Address) (s : Session Scripted) :
    s.Ended (.readByte a) ((readOne a).run s) := by
  rcases Scripted.readByte_cases a s.machine with ⟨value, hread⟩ | ⟨p, hpanic, hread⟩
  · rw [readOne, run_bind_of_ok (run_onMachine hread)]
    exact .replied _ _
  · rw [readOne, run_bind_of_error (run_onMachine hread)]
    -- A single byte is a range of one, and the panic is at its first byte.
    refine .panicked p (.access rfl ⟨checkRange_one a, 0, Nat.one_pos, ?_, rfl⟩)
    rw [MemoryOp.start, Nat.add_zero, Address.ofNat_toNat]
    exact hpanic

theorem ended_access {request : Request} {op : MemoryOp} (hop : request.memoryOp? = some op)
    (s : Session Scripted) : s.Ended request ((access op).run s) := by
  have hended := MemoryOp.ended_perform s.regions op s.machine
  rw [access, run_bind_of_ok (run_current s)]
  generalize hrun : (op.perform s.regions).run s.machine = r at hended
  cases hended with
  | done reply =>
    rw [run_bind_of_ok (run_onMachine hrun)]
    exact .replied _ _
  | refused e =>
    rw [run_bind_of_ok (run_onMachine hrun)]
    exact .refused e
  | panicked p hcut =>
    rw [run_bind_of_error (run_onMachine hrun)]
    exact .panicked p (.access hop hcut)

theorem ended_batch (ops : List MemoryOp) (s : Session Scripted) :
    s.Ended (.batch ops) ((batch ops).run s) := by
  rw [batch, run_bind_of_ok (run_current s)]
  rcases MemoryOp.performAll_cases s.regions ops s.machine with
    ⟨outcomes, hrun⟩ | ⟨p, left, hrun, hcut⟩
  · rw [run_bind_of_ok (run_onMachine hrun)]
    exact .replied _ _
  · rw [run_bind_of_error (run_onMachine hrun)]
    exact .panicked p (.batch hcut)

theorem ended_changeOverlay (request : Request) (c : Channel)
    (change : Session Scripted → Except Misuse (Option Tick × OverlaySet))
    (s : Session Scripted) : s.Ended request ((changeOverlay c change).run s) := by
  rw [Action.run, changeOverlay]
  split
  · exact .refused _
  · exact .replied _ _

/-- Asking for input in vain leaves the machine as it is. -/
theorem rawInputs_cases (channels : List Channel) (m : Scripted) :
    (∃ raws, (rawInputs channels).run m = (.ok raws, m)) ∨
      ∃ p c, c ∈ channels ∧ m.faults.panicRaw = some c ∧
        (rawInputs channels).run m = (.error p, m) := by
  induction channels with
  | nil => exact .inl ⟨[], rfl⟩
  | cons c rest ih =>
    by_cases hpanic : m.faults.panicRaw = some c
    · have hraw : (Machine.rawInput c).run m = (.error (m.faults.payload "raw_input"), m) :=
        congrArg (·, m) (if_pos hpanic)
      exact .inr ⟨_, c, List.mem_cons_self, hpanic, run_bind_of_error hraw⟩
    · have hraw : (Machine.rawInput c).run m = (.ok (m.rawOf c), m) :=
        congrArg (·, m) (if_neg hpanic)
      rw [rawInputs, run_bind_of_ok hraw]
      rcases ih with ⟨raws, hrest⟩ | ⟨p, d, hd, hpanic, hrest⟩
      · exact .inl ⟨_, run_bind_of_ok hrest⟩
      · exact .inr ⟨p, d, List.mem_cons_of_mem _ hd, hpanic, run_bind_of_error hrest⟩

theorem ended_inputStatus (s : Session Scripted) : s.Ended .inputStatus (inputStatus.run s) := by
  rw [inputStatus, run_bind_of_ok (run_current s)]
  rcases rawInputs_cases s.overlays.channels s.machine with
    ⟨raws, hrun⟩ | ⟨p, c, hc, hpanic, hrun⟩
  · rw [run_bind_of_ok (run_onMachine hrun)]
    exact .replied _ _
  · rw [run_bind_of_error (run_onMachine hrun)]
    exact .panicked p (.rawInput hc hpanic)

/-- A slot that could not be used leaves the machine as it is. -/
theorem ended_useSlot (request : Request) (slot : UInt8)
    {x : Action Scripted (Except MachineError Unit)} (s : Session Scripted)
    (hx : (∃ m, x.run s.machine = (.ok (.ok ()), m)) ∨
      ∃ e, x.run s.machine = (.ok (.error e), s.machine)) :
    s.Ended request ((useSlot slot x).run s) := by
  rcases hx with ⟨m, hrun⟩ | ⟨e, hrun⟩
  · rw [useSlot, run_bind_of_ok (run_onMachine hrun)]
    exact .replied _ _
  · rw [useSlot, run_bind_of_ok (run_onMachine hrun)]
    exact .refused _

theorem saveState_cases (slot : UInt8) (m : Scripted) :
    (∃ m', (Machine.saveState slot).run m = (.ok (.ok ()), m')) ∨
      ∃ e, (Machine.saveState slot).run m = (.ok (.error e), m) := by
  simp only [Action.run, Machine.saveState, Scripted.saveState]
  split
  · exact .inl ⟨_, rfl⟩
  · exact .inr ⟨_, rfl⟩
  · exact .inr ⟨_, rfl⟩

theorem loadState_cases (slot : UInt8) (m : Scripted) :
    (∃ m', (Machine.loadState slot).run m = (.ok (.ok ()), m')) ∨
      ∃ e, (Machine.loadState slot).run m = (.ok (.error e), m) := by
  simp only [Action.run, Machine.loadState, Scripted.loadState]
  split
  · split
    · exact .inl ⟨_, rfl⟩
    · exact .inr ⟨_, rfl⟩
  · exact .inr ⟨_, rfl⟩
  · exact .inr ⟨_, rfl⟩

/-- One case for each request. -/
theorem ended_respond (request : Request) (s : Session Scripted) :
    s.Ended request ((respond request).run s) := by
  cases request with
  | readByte a => exact ended_readOne a s
  | readRange start size => exact ended_access rfl s
  | writeByte a value => exact ended_access rfl s
  | writeRange start data => exact ended_access rfl s
  | batch ops => exact ended_batch ops s
  | setOverlay c set clear hold => exact ended_changeOverlay _ c _ s
  | clearOverlay c buttons => exact ended_changeOverlay _ c _ s
  | setState c buttons hold => exact ended_changeOverlay _ c _ s
  | inputStatus => exact ended_inputStatus s
  | pause => exact .replied _ _
  | resume => exact .replied _ _
  | status => exact .replied _ _
  | saveState slot => exact ended_useSlot _ slot s (saveState_cases slot s.machine)
  | loadState slot => exact ended_useSlot _ slot s (loadState_cases slot s.machine)

theorem ended_handle (request : Request) (s : Session Scripted) :
    s.Ended request ((handle request).run s) := by
  rw [handle]
  split
  · have hloaded : (onMachine Machine.isLoaded).run s = (.ok s.machine.loaded, s) := rfl
    rw [run_bind_of_ok hloaded]
    cases s.machine.loaded with
    | true => exact ended_respond request s
    | false => exact .refused _
  · exact ended_respond request s

variable {s : Session Scripted}

/-- A failure is an answer that leaves the session as it was, or a panic. -/
theorem handle_failed {request : Request} {e : CommandError}
    (h : outcomeOf ((handle request).run s).1 = .error e) :
    (handle request).run s = (.ok (.error e), s) ∨
      ∃ p left, (handle request).run s = (.error p, { s with machine := left }) ∧
        e = .internal (.handlerPanicked p) ∧ s.CutShort request left := by
  have hended := ended_handle request s
  generalize (handle request).run s = r at h hended ⊢
  cases hended with
  | replied reply s' => cases h
  | refused e' =>
    cases h
    exact .inl rfl
  | panicked p hcut =>
    cases h
    exact .inr ⟨p, _, rfl, rfl, hcut⟩

/-! ### What a panic leaves -/

/-- What the first bytes of any memory operation preserve, a panic preserves. -/
theorem CutShort.induction {P : Scripted → Prop}
    (hP : ∀ op n m, P m → P (MemoryOp.upTo n m op)) {request : Request} {left : Scripted}
    (h : s.CutShort request left) (hm : P s.machine) : P left := by
  cases h with
  | access _ hcut =>
    obtain ⟨-, i, -, -, rfl⟩ := hcut
    exact hP _ i _ hm
  | batch hcut => exact hcut.induction hP hm
  | rawInput _ _ => exact hm

/-- A read that was cut short has lowered the inspection flag. -/
theorem CutShort.inspection_of_read {request : Request} {left : Scripted}
    (h : s.CutShort request left) (hread : request.kind = .readState) :
    left.inspection = false := by
  cases h with
  | @access request op left hop hcut =>
    obtain ⟨-, i, -, -, rfl⟩ := hcut
    cases op with
    | read start size => rfl
    | write start data => cases request <;> cases hop <;> cases hread
  | batch _ => cases hread
  | rawInput _ _ => cases hread

end Session

/-! ### The commands after a failure -/

namespace Bridge

/-- To the session, running commands is running their requests. -/
theorem runAll_eq_runCommands {σ : Type} [Machine σ] (b : Bridge σ) (commands : List Command) :
    Session.runAll (commands.map (·.request)) b.session =
      ((b.runCommands commands).1, (b.runCommands commands).2.session) := by
  induction commands generalizing b with
  | nil => rfl
  | cons command rest ih =>
    rw [List.map_cons, Session.runAll]
    exact congrArg (fun r => (_ :: r.1, r.2)) (ih (b.runCommand command).2)

/-- What commands do to the session, and their outcomes, depend on the session and the requests
only. -/
theorem runCommands_congr {σ : Type} [Machine σ] {b c : Bridge σ} {commands others : List Command}
    (hsession : c.session = b.session)
    (hrequests : others.map (·.request) = commands.map (·.request)) :
    (c.runCommands others).1 = (b.runCommands commands).1 ∧
      (c.runCommands others).2.session = (b.runCommands commands).2.session := by
  have hc := c.runAll_eq_runCommands others
  rw [hsession, hrequests, b.runAll_eq_runCommands] at hc
  exact ⟨(congrArg Prod.fst hc).symm, (congrArg Prod.snd hc).symm⟩

/-- A failing command has changed nothing if its handler has answered. If the handler has panicked,
only memory, inspection flag and counts of the machine differ, by what the handler had got through.
The flag is down if it was down before, and after a read that was cut short. The commands that the
tick has left run as they do in a tick of their own, on what the failing command has left. -/
theorem failure_leaves_prefix {b : Bridge Scripted} {command : Command} {e : CommandError}
    (h : (b.runCommand command).1 = .error e) :
    let s := b.session
    let after := (b.runCommand command).2.session
    (((Session.handle command.request).run s).1 = .ok (.error e) ∧ after = s ∨
      ∃ p left, ((Session.handle command.request).run s).1 = .error p ∧
        e = .internal (.handlerPanicked p) ∧ after = { s with machine := left } ∧
        s.CutShort command.request left ∧ s.machine.SameButMemory left ∧
        (command.request.kind = .readState → left.inspection = false)) ∧
    (s.machine.inspection = false → after.machine.inspection = false) ∧
    ∀ (rest : List Command) (alone : Bridge Scripted), alone.session = after →
      alone.batch.map (·.request) = rest.map (·.request) →
      (b.runCommands (command :: rest)).1 = .error e :: alone.outcomes ∧
        (b.runCommands (command :: rest)).2.session = alone.served.session := by
  intro s after
  refine ⟨?_, ?_, ?_⟩
  · rcases Session.handle_failed h with hrun | ⟨p, left, hrun, rfl, hcut⟩
    · exact .inl ⟨congrArg Prod.fst hrun, congrArg Prod.snd hrun⟩
    · refine .inr ⟨p, left, congrArg Prod.fst hrun, rfl, congrArg Prod.snd hrun, hcut, ?_,
        hcut.inspection_of_read⟩
      exact hcut.induction (fun op n _ hm => hm.upTo op n) rfl
  · intro hdown
    rcases Session.handle_failed h with hrun | ⟨p, left, hrun, -, hcut⟩
    · have hafter : after = s := congrArg Prod.snd hrun
      rwa [hafter]
    · have hafter : after = { s with machine := left } := congrArg Prod.snd hrun
      rw [hafter]
      exact hcut.induction (P := fun m => m.inspection = false)
        (fun op n _ hm => op.inspection_upTo n hm) hdown
  · intro rest alone hsession hrequests
    -- Numbers and tickets differ between the two bridges, sessions and requests do not.
    obtain ⟨houtcomes, hlast⟩ := runCommands_congr (b := (b.runCommand command).2)
      (c := alone.drained) hsession hrequests
    refine ⟨?_, hlast.symm⟩
    rw [runCommands, h, ← houtcomes]
    rfl

/-- Of two bytes the second one cannot be written; then both are read. -/
theorem first_of_two_bytes_written :
    let faults := { Faults.none with panicOnWrite := some (Address.ofNat 0x101) }
    let b := Bridge.standard (Scripted.fresh true false faults)
    let command : Command := ⟨0, .writeRange (Address.ofNat 0x100) [1, 2], .zero⟩
    let after := (b.runCommand command).2.session
    let read : Request := .readRange (Address.ofNat 0x100) 2
    let alone := (Bridge.submit { b with session := after } read).2
    (b.runCommand command).1 = .error (.internal (.handlerPanicked .silent)) ∧
      after.machine.memory.get (Address.ofNat 0x100) = 1 ∧
      after.machine.memory.get (Address.ofNat 0x101) = 0 ∧
      (b.runCommands [command, ⟨1, read, .zero⟩]).1 =
        .error (.internal (.handlerPanicked .silent)) :: alone.outcomes := by
  intro faults b command after read alone
  have hfailed : (b.runCommand command).1 = .error (.internal (.handlerPanicked .silent)) := rfl
  obtain ⟨⟨hanswer, -⟩ | ⟨p, left, -, -, hafter, hcut, -⟩, -, hrest⟩ :=
    failure_leaves_prefix hfailed
  · cases hanswer
  · have hinitial : ∀ a, a ≠ Scripted.latch → b.session.machine.memory.get a = 0 := by
      intro a ha
      exact (MemoryImage.get_set_of_ne _ ha.symm _).trans (MemoryImage.get_zeros a)
    have hleft : left = b.session.machine.written (Address.ofNat 0x100).toNat [1] := by
      cases hcut with
      | access hop hcut =>
        cases hop
        obtain ⟨-, i, hi, hfault, rfl⟩ := hcut
        have hi : i < 2 := hi
        -- The write has panicked at the second byte, since the first one is at another address.
        obtain rfl | rfl : i = 0 ∨ i = 1 := by omega
        · exact absurd hfault (by decide)
        · rfl
    have hmemory : after.machine.memory =
        b.session.machine.memory.overwrite (Address.ofNat 0x100).toNat [1] := by
      have hafter : after = { b.session with machine := left } := hafter
      rw [hafter, hleft, Scripted.written]
    refine ⟨hfailed, ?_, ?_, (hrest [⟨1, read, .zero⟩] alone rfl rfl).1⟩
    · rw [hmemory, MemoryImage.get_overwrite _ _ (by decide)]
      rfl
    · rw [hmemory, MemoryImage.get_overwrite _ _ (by decide)]
      exact hinitial _ (by decide)

/-- Failing does not lower a flag that was raised before: a write never touches it. -/
theorem raised_flag_survives_failure :
    ¬ ∀ (b : Bridge Scripted) (command : Command) (e : CommandError),
      (b.runCommand command).1 = .error e →
        (b.runCommand command).2.session.machine.inspection = false := by
  intro h
  have hdown := h
    (Bridge.standard { Scripted.fresh true false
        { Faults.none with panicOnWrite := some (Address.ofNat 0x101) } with inspection := true })
    ⟨0, .writeRange (Address.ofNat 0x100) [1, 2], .zero⟩ _ rfl
  cases hdown

end Bridge

end CommandBridge
