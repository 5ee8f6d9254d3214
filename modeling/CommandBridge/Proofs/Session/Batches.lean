import CommandBridge.Proofs.Bridge.Opening
import CommandBridge.Proofs.Memory.Interrupted
import CommandBridge.Proofs.Session.Questions
import CommandBridge.Proofs.Session.Replay

/-!
# A batch is its operations, one after the other

A batch is admitted and run by code of its own, and a producer who puts operations into one wants
nothing to be different for that. It is not (`Session.batch_eq_alone`):

* a batch of an admissible length is admitted if each operation would be admitted alone, and is
  refused for the reason for which its first inadmissible operation would be refused;
* unless something panics, it has the results that its operations have alone, one after the other,
  and leaves the same session; an operation that fails could as well have been left out;
* a byte that is read or written alone is a range of one.

Both runs ask the machine whether something is loaded, the batch once and its operations each for
itself. So the questions must not change the machine, and access to memory must not unload it
(`Machine.StaysLoaded`). The main step is `Session.runAll_alone`, an induction along the batch.
-/

namespace CommandBridge

open CommandBridge.Action

/-! ### Admission -/

namespace Limits

variable {limits : Limits} {ops : List MemoryOp}

theorem check_alone (limits : Limits) (op : MemoryOp) :
    limits.check op.alone = limits.checkOp op := by
  cases op <;> rfl

theorem checkAll_eq_ok :
    limits.checkAll ops = .ok () ↔ ∀ op ∈ ops, limits.check op.alone = .ok () := by
  induction ops with
  | nil => simp [checkAll]
  | cons op rest ih => rw [checkAll_cons_eq_ok, List.forall_mem_cons, check_alone, ih]

theorem checkAll_append {before after : List MemoryOp}
    (h : ∀ op ∈ before, limits.check op.alone = .ok ()) :
    limits.checkAll (before ++ after) = limits.checkAll after := by
  induction before with
  | nil => rfl
  | cons op rest ih =>
    have hop := h op List.mem_cons_self
    rw [check_alone] at hop
    rw [List.cons_append, checkAll, hop]
    exact ih fun op' hop' => h op' (List.mem_cons_of_mem op hop')

/-- The first operation that would be refused alone decides. -/
theorem checkAll_eq_error {e : CommandError} :
    limits.checkAll ops = .error e ↔
      ∃ before op after, ops = before ++ op :: after ∧
        (∀ earlier ∈ before, limits.check earlier.alone = .ok ()) ∧
        limits.check op.alone = .error e := by
  constructor
  · intro h
    induction ops with
    | nil => cases h
    | cons op rest ih =>
      rw [checkAll] at h
      cases hop : limits.checkOp op with
      | error e' =>
        rw [hop] at h
        exact ⟨[], op, rest, rfl, by simp, (check_alone limits op).trans (hop.trans h)⟩
      | ok _ =>
        rw [hop] at h
        obtain ⟨before, op', after, rfl, hbefore, hrefused⟩ := ih h
        refine ⟨op :: before, op', after, rfl, ?_, hrefused⟩
        exact List.forall_mem_cons.mpr ⟨(check_alone limits op).trans hop, hbefore⟩
  · rintro ⟨before, op, after, rfl, hbefore, hrefused⟩
    rw [check_alone] at hrefused
    rw [checkAll_append hbefore, checkAll, hrefused]

/-- A batch of an admissible length is admitted like its operations. -/
theorem check_batch (hpos : 1 ≤ ops.length) (hle : ops.length ≤ maxBatchSize) :
    limits.check (.batch ops) = limits.checkAll ops := by
  have hempty : ops.isEmpty = false := by
    cases ops with
    | nil => cases hpos
    | cons op rest => rfl
  rw [check, checkBatch, hempty, if_neg Bool.false_ne_true, if_neg (Nat.not_lt.mpr hle)]

theorem check_batch_eq_ok :
    limits.check (.batch ops) = .ok () ↔
      1 ≤ ops.length ∧ ops.length ≤ maxBatchSize ∧
        ∀ op ∈ ops, limits.check op.alone = .ok () := by
  constructor
  · intro h
    have hlength : 1 ≤ ops.length ∧ ops.length ≤ maxBatchSize := by
      rw [check, checkBatch] at h
      split at h
      · cases h
      · split at h
        · cases h
        · rename_i hempty hle
          refine ⟨?_, Nat.not_lt.mp hle⟩
          exact List.length_pos_iff.mpr fun hnil => hempty (by rw [hnil]; rfl)
    rw [check_batch hlength.1 hlength.2] at h
    exact ⟨hlength.1, hlength.2, checkAll_eq_ok.mp h⟩
  · rintro ⟨hpos, hle, h⟩
    rw [check_batch hpos hle]
    exact checkAll_eq_ok.mpr h

end Limits

/-! ### Machines that stay loaded -/

/-- Access to memory does not unload what is loaded. -/
structure Machine.StaysLoaded (σ : Type) [Machine σ] : Prop where
  setInspection (active : Bool) (m : σ) : Loaded m → Loaded (Machine.setInspection active m)
  peek (a : Address) : Action.Keeps (Loaded (σ := σ)) (Machine.peek a)
  poke (a : Address) (value : UInt8) : Action.Keeps (Loaded (σ := σ)) (Machine.poke a value)

theorem Scripted.staysLoaded : Machine.StaysLoaded Scripted where
  setInspection _ _ h := h
  peek a m h := (congrArg Except.ok (sameSetting_peek a m).loaded_eq).trans h
  poke a value m h := (congrArg Except.ok (sameSetting_poke a value m).loaded_eq).trans h

variable {σ : Type} [Machine σ]

namespace Machine

variable (hdiscreet : Discreet σ) (hstays : StaysLoaded σ)

include hdiscreet hstays

/-- A memory operation leaves the machine loaded, however it ends. -/
theorem keeps_loaded_perform (map : RegionMap) (op : MemoryOp) :
    Action.Keeps (Loaded (σ := σ)) (op.perform map) := by
  have hfeature : ∀ f, Action.Keeps (Loaded (σ := σ)) (Machine.hasFeature f) := by
    intro f m hm
    rwa [hdiscreet.hasFeature]
  refine keeps_perform (keeps_readRange (hstays.setInspection true) hstays.peek
    (hstays.setInspection false)) (fun start data => ?_) op
  exact keeps_writeRange hfeature fun _ _ _ _ _ a _ value => hstays.poke a value

end Machine

/-! ### Operations, alone and in a batch -/

namespace Session

theorem run_access (op : MemoryOp) (s : Session σ) :
    (access op).run s = (((op.perform s.regions).run s.machine).1.map (·.map Reply.access),
      { s with machine := ((op.perform s.regions).run s.machine).2 }) := by
  rw [access, run_bind_of_ok (run_current s), run_bind_pure, onMachine, run_onPart]

theorem run_batch (ops : List MemoryOp) (s : Session σ) :
    (batch ops).run s = (((performAll s.regions ops).run s.machine).1.map (Except.ok <| Reply.batch ·),
      { s with machine := ((performAll s.regions ops).run s.machine).2 }) := by
  rw [batch, run_bind_of_ok (run_current s), run_bind_pure, onMachine, run_onPart]

section

variable (hdiscreet : Machine.Discreet σ) {s : Session σ} (hloaded : Machine.Loaded s.machine)

include hdiscreet hloaded

theorem run_handle_alone (op : MemoryOp) :
    (handle op.alone).run s = (((op.perform s.regions).run s.machine).1.map (·.map Reply.access),
      { s with machine := ((op.perform s.regions).run s.machine).2 }) := by
  rw [hdiscreet.handle_of_loaded hloaded, ← run_access]
  cases op <;> rfl

theorem run_handle_batch (ops : List MemoryOp) :
    (handle (.batch ops)).run s =
      (((performAll s.regions ops).run s.machine).1.map (Except.ok <| Reply.batch ·),
        { s with machine := ((performAll s.regions ops).run s.machine).2 }) := by
  rw [hdiscreet.handle_of_loaded hloaded, ← run_batch]
  rfl

variable (hstays : Machine.StaysLoaded σ) {ops : List MemoryOp}
  {results : List (Outcome AccessReply)} {m : σ}

include hstays

/-- The operations of a batch that has answered have the same results alone, one after the other,
and leave the same session. -/
theorem runAll_alone (h : (performAll s.regions ops).run s.machine = (.ok results, m)) :
    runAll (ops.map MemoryOp.alone) s =
      (results.map (·.map Reply.access), { s with machine := m }) := by
  induction ops generalizing s results with
  | nil =>
    cases h
    rfl
  | cons op rest ih =>
    obtain ⟨outcome, t, hfirst, h⟩ := run_bind_eq_ok_iff.mp h
    obtain ⟨later, t', hrest, h⟩ := run_bind_eq_ok_iff.mp h
    cases h
    -- The session that the first operation leaves has the same regions and is loaded.
    have ht : Machine.Loaded t := by
      simpa only [hfirst] using
        Machine.keeps_loaded_perform hdiscreet hstays s.regions op s.machine hloaded
    have hrest := ih (s := { s with machine := t }) ht hrest
    rw [List.map_cons, runAll, run_handle_alone hdiscreet hloaded, hfirst]
    exact congrArg (fun r => (outcome.map Reply.access :: r.1, r.2)) hrest

/-- A batch panics if one of its operations does, when its turn comes. -/
theorem performAll_panics_iff :
    (∃ p, ((performAll s.regions ops).run s.machine).1 = .error p) ↔
      ∃ i op p, ops[i]? = some op ∧
        ((handle op.alone).run (runAll ((ops.take i).map MemoryOp.alone) s).2).1 = .error p := by
  induction ops generalizing s with
  | nil => simp [performAll]
  | cons op rest ih =>
    have halone := run_handle_alone hdiscreet hloaded op
    rcases hfirst : (op.perform s.regions).run s.machine with ⟨p | outcome, t⟩
    · refine iff_of_true ⟨p, ?_⟩ ⟨0, op, p, rfl, ?_⟩
      · rw [performAll, run_bind_of_error hfirst]
      · rw [List.take_zero, List.map_nil, runAll, halone, hfirst]
        rfl
    · have ht : Machine.Loaded t := by
        simpa only [hfirst] using
          Machine.keeps_loaded_perform hdiscreet hstays s.regions op s.machine hloaded
      have ih := ih (s := { s with machine := t }) ht
      have hrun : ∀ l : List MemoryOp, (runAll ((op :: l).map MemoryOp.alone) s).2 =
          (runAll (l.map MemoryOp.alone) { s with machine := t }).2 := by
        intro l
        rw [List.map_cons, runAll, halone, hfirst]
      rw [performAll, run_bind_of_ok hfirst, run_bind_pure]
      constructor
      · rintro ⟨p, hp⟩
        obtain ⟨i, op', p', hget, hpanic⟩ := ih.mp ⟨p, map_eq_error.mp hp⟩
        exact ⟨i + 1, op', p', hget, by rwa [List.take_succ_cons, hrun]⟩
      · rintro ⟨_ | i, op', p, hget, hpanic⟩
        · -- The first operation has answered.
          cases hget
          rw [List.take_zero, List.map_nil, runAll, halone, hfirst] at hpanic
          cases hpanic
        · rw [List.take_succ_cons, hrun] at hpanic
          obtain ⟨p', hp'⟩ := ih.mpr ⟨i, op', p, hget, hpanic⟩
          exact ⟨p', map_eq_error.mpr hp'⟩

end

/-- An operation that fails could as well have been left out. -/
theorem performAll_eraseIdx (hdiscreet : Machine.Discreet σ) {map : RegionMap}
    {ops : List MemoryOp} {results : List (Outcome AccessReply)} {m m' : σ} {i : Nat}
    {e : CommandError} (h : (performAll map ops).run m = (.ok results, m'))
    (he : results[i]? = some (.error e)) :
    (performAll map (ops.eraseIdx i)).run m = (.ok (results.eraseIdx i), m') := by
  induction ops generalizing m results i with
  | nil =>
    cases h
    cases he
  | cons op rest ih =>
    obtain ⟨outcome, t, hfirst, h⟩ := run_bind_eq_ok_iff.mp h
    obtain ⟨later, t', hrest, h⟩ := run_bind_eq_ok_iff.mp h
    cases h
    cases i with
    | zero =>
      cases he
      rw [hdiscreet.perform_of_error hfirst] at hrest
      exact hrest
    | succ i =>
      exact run_bind_eq_ok_iff.mpr ⟨outcome, t, hfirst,
        run_bind_eq_ok_iff.mpr ⟨later.eraseIdx i, _, ih hrest he, rfl⟩⟩

/-! ### Single bytes -/

/-- A reply to the reading of a byte, put like a reply to the reading of a range. -/
def asRange : Reply → Reply
  | .byte value => .access (.bytes [value])
  | reply => reply

theorem run_readRange_one (a : Address) (m : σ) :
    (readRange a 1).run m =
      (((readByte a).run m).1.map (Except.ok [·]), ((readByte a).run m).2) := by
  have hpeek : (peekAll (Address.range a 1) : Action σ _) =
      Machine.peek a >>= fun value => pure [value] := by
    simp [Address.range, peekAll]
  have hread : (inspecting (peekAll (Address.range a 1))).run m =
      (((readByte a).run m).1.map ([·]), ((readByte a).run m).2) := by
    rw [hpeek]
    exact congrArg (fun r : Except Panic _ × σ => (r.1, Machine.setInspection false r.2))
      (run_bind_pure (Machine.peek a) ([·]) (Machine.setInspection true m))
  rw [readRange, checkRange_one]
  refine (run_bind_pure _ Except.ok m).trans ?_
  rw [hread]
  cases ((readByte a).run m).1 <;> rfl

theorem run_respond_readRange_one (a : Address) (s : Session σ) :
    (respond (.readRange a 1)).run s =
      (((respond (.readByte a)).run s).1.map (·.map asRange),
        ((respond (.readByte a)).run s).2) := by
  have hperform : ((MemoryOp.read a 1).perform s.regions : Action σ _).run s.machine =
      (((readByte a).run s.machine).1.map fun value => .ok (.bytes [value]),
        ((readByte a).run s.machine).2) := by
    refine (run_bind_pure (readRange a 1) (·.map AccessReply.bytes) s.machine).trans ?_
    rw [run_readRange_one]
    cases ((readByte a).run s.machine).1 <;> rfl
  have hbyte : (respond (.readByte a)).run s =
      (((readByte a).run s.machine).1.map fun value => .ok (.byte value),
        { s with machine := ((readByte a).run s.machine).2 }) :=
    run_bind_pure (onMachine (readByte a)) (fun value => Except.ok (Reply.byte value)) s
  rw [hbyte, respond, run_access, hperform]
  cases ((readByte a).run s.machine).1 <;> rfl

/-- Reading a byte is reading a range of one. -/
theorem run_handle_readRange_one (a : Address) (s : Session σ) :
    (handle (.readRange a 1)).run s =
      (((handle (.readByte a)).run s).1.map (·.map asRange),
        ((handle (.readByte a)).run s).2) := by
  have hrange : (Request.readRange a 1).needsSession = true := rfl
  have hbyte : (Request.readByte a).needsSession = true := rfl
  rw [handle, handle, if_pos hrange, if_pos hbyte]
  rcases hloaded : (onMachine Machine.isLoaded).run s with ⟨p | loaded, t⟩
  · rw [run_bind_of_error hloaded, run_bind_of_error hloaded]
    rfl
  · rw [run_bind_of_ok hloaded, run_bind_of_ok hloaded]
    cases loaded with
    | true => exact run_respond_readRange_one a t
    | false => rfl

/-! ### Batches -/

/-- A batch is admitted and refused like its operations. In a session that has something loaded
it panics if one of them does alone when its turn comes, and otherwise has their results and
leaves the session that they leave; whoever leaves out one that fails gets the other results and
the same session. A byte is a range of one. -/
theorem batch_eq_alone (hdiscreet : Machine.Discreet σ) (hstays : Machine.StaysLoaded σ) :
    (∀ (limits : Limits) (ops : List MemoryOp),
      (limits.check (.batch ops) = .ok () ↔
        1 ≤ ops.length ∧ ops.length ≤ 100 ∧ ∀ op ∈ ops, limits.check op.alone = .ok ()) ∧
      (1 ≤ ops.length → ops.length ≤ 100 → ∀ e, limits.check (.batch ops) = .error e ↔
        ∃ before op after, ops = before ++ op :: after ∧
          (∀ earlier ∈ before, limits.check earlier.alone = .ok ()) ∧
          limits.check op.alone = .error e)) ∧
    (∀ (s : Session σ) (ops : List MemoryOp), Machine.Loaded s.machine →
      ((∃ p, ((handle (.batch ops)).run s).1 = .error p) ↔
        ∃ i op p, ops[i]? = some op ∧
          ((handle op.alone).run (runAll ((ops.take i).map MemoryOp.alone) s).2).1 = .error p) ∧
      ∀ outcome s', (handle (.batch ops)).run s = (.ok outcome, s') →
        ∃ results, outcome = .ok (.batch results) ∧ results.length = ops.length ∧
          runAll (ops.map MemoryOp.alone) s = (results.map (·.map Reply.access), s') ∧
          ∀ i e, results[i]? = some (.error e) →
            (handle (.batch (ops.eraseIdx i))).run s =
              (.ok (.ok (.batch (results.eraseIdx i))), s')) ∧
    (∀ (a : Address) (value : UInt8) (s : Session σ),
      (∀ limits : Limits, limits.check (.writeByte a value) = limits.check (.writeRange a [value])) ∧
      (handle (.writeByte a value)).run s = (handle (.writeRange a [value])).run s) ∧
    ∀ (a : Address) (s : Session σ),
      (handle (.readRange a 1)).run s =
        (((handle (.readByte a)).run s).1.map (·.map asRange),
          ((handle (.readByte a)).run s).2) := by
  refine ⟨fun limits ops => ⟨Limits.check_batch_eq_ok, ?_⟩, fun s ops hloaded => ⟨?_, ?_⟩,
    fun _ _ _ => ⟨fun _ => rfl, rfl⟩, run_handle_readRange_one⟩
  · intro hpos hle e
    rw [Limits.check_batch hpos hle]
    exact Limits.checkAll_eq_error
  · rw [run_handle_batch hdiscreet hloaded, ← performAll_panics_iff hdiscreet hloaded hstays]
    simp only [map_eq_error]
  · intro outcome s' h
    rw [run_handle_batch hdiscreet hloaded] at h
    rcases hall : (performAll s.regions ops).run s.machine with ⟨p | results, m⟩
    · rw [hall] at h
      cases h
    · rw [hall] at h
      cases h
      have hrun := runAll_alone hdiscreet hloaded hstays hall
      refine ⟨results, rfl, ?_, hrun, ?_⟩
      · have hlength := length_runAll (ops.map MemoryOp.alone) s
        rwa [hrun, List.length_map, List.length_map] at hlength
      · intro i e he
        rw [run_handle_batch hdiscreet hloaded, performAll_eraseIdx hdiscreet hall he]
        rfl

/-- Of three operations the second one is refused, for want of a battery, and the third one sees
what the first one has written. -/
theorem batch_eq_alone_without_battery :
    let s := (Bridge.standard (Scripted.fresh true false Faults.none)).session
    let write : MemoryOp := .write (Address.ofNat 0x10) [5]
    let denied : MemoryOp := .write (Address.ofNat 0x6000) [1]
    let read : MemoryOp := .read (Address.ofNat 0x10) 1
    (Limits.mk s.regions 2).check (.batch [write, denied, read]) = .ok () ∧
      ∃ s', runAll ([write, denied, read].map MemoryOp.alone) s =
          ([.ok (.access (.written (Address.ofNat 0x10) 1)),
            .error (.permissionDenied (Address.ofNat 0x6000)), .ok (.access (.bytes [5]))], s') ∧
        (handle (.batch [write, read])).run s =
          (.ok (.ok (.batch [.ok (.written (Address.ofNat 0x10) 1), .ok (.bytes [5])])), s') := by
  intro s write denied read
  obtain ⟨hadmitted, hrun, -⟩ :=
    batch_eq_alone Scripted.discreet Scripted.staysLoaded
  have hread : ((s.machine.memory.set (Address.ofNat 0x10) 5).get (Address.ofNat 0x10)) = 5 :=
    MemoryImage.get_set_self _ _ _
  have hbatch : ∃ s', (handle (.batch [write, denied, read])).run s =
      (.ok (.ok (.batch [.ok (.written (Address.ofNat 0x10) 1),
        .error (.permissionDenied (Address.ofNat 0x6000)),
        .ok (.bytes [(s.machine.memory.set (Address.ofNat 0x10) 5).get (Address.ofNat 0x10)])])),
        s') := ⟨_, rfl⟩
  obtain ⟨s', hbatch⟩ := hbatch
  rw [hread] at hbatch
  obtain ⟨results, hresults, -, halone, herase⟩ := (hrun s _ rfl).2 _ s' hbatch
  cases hresults
  refine ⟨(hadmitted _ _).1.mpr ⟨by decide, by decide, ?_⟩, s', halone, herase 1 _ rfl⟩
  exact List.forall_mem_cons.mpr
    ⟨rfl, List.forall_mem_cons.mpr ⟨rfl, List.forall_mem_singleton.mpr rfl⟩⟩

end Session

end CommandBridge
