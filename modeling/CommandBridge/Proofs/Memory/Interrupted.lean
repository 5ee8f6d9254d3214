import CommandBridge.Proofs.Memory.Writing

/-!
# Memory operations that a panic cuts short

What an operation has done to a scripted machine when it has got through its first `n` bytes is
`MemoryOp.upTo n`: a read has lowered the inspection flag and counted `n` reads, a write has
written `n` bytes. The whole operation is the case in which `n` is its size.

There are three ways for an operation to end (`MemoryOp.Ended`, `MemoryOp.ended_perform`): it is
refused and has done nothing, it is done and has done everything, or it panics at the `n`-th byte
of its range and has done what comes before. A batch is no different: the operations before the
one that panics have ended in one of the first two ways, and those after it have not begun
(`MemoryOp.performAll_cases`).
-/

namespace CommandBridge

open CommandBridge.Action

/-! ### Consecutive bytes -/

/-- A range that is accepted lies in the address space. -/
theorem add_le_of_checkRange {start : Address} {size : Nat} (h : checkRange start size = .ok ()) :
    start.toNat + size ≤ Address.spaceSize := by
  rw [checkRange] at h
  split at h
  · cases h
  · split at h
    · cases h
    · split at h
      · cases h
      · omega

/-- One byte is always a range. -/
theorem checkRange_one (a : Address) : checkRange a 1 = .ok () := by
  have hroom : ¬ Address.spaceSize < a.toNat + 1 := by
    have ha := a.toNat_lt
    omega
  rw [checkRange, if_neg (by decide), if_neg (by decide), if_neg hroom]

namespace MemoryImage

/-- The image with the bytes from position `first` on replaced. -/
def overwrite (m : MemoryImage) (first : Nat) : List UInt8 → MemoryImage
  | [] => m
  | value :: rest => (m.set (Address.ofNat first) value).overwrite (first + 1) rest

/-- Only the bytes at the positions of the data are replaced. -/
theorem get_overwrite (m : MemoryImage) {first : Nat} {data : List UInt8} (a : Address)
    (hroom : first + data.length ≤ Address.spaceSize) :
    (m.overwrite first data).get a =
      if first ≤ a.toNat then (data[a.toNat - first]?).getD (m.get a) else m.get a := by
  induction data generalizing m first with
  | nil => simp [overwrite]
  | cons value rest ih =>
    rw [List.length_cons] at hroom
    have hfirst : Address.ofNat first = a ↔ first = a.toNat := by
      constructor
      · rintro rfl
        exact (Address.toNat_ofNat_of_lt (by omega)).symm
      · rintro rfl
        exact Address.ofNat_toNat a
    rw [overwrite, ih _ (by omega)]
    simp only [get_set, hfirst]
    -- The byte in question is one of the rest, the first one, or lies below the range.
    rcases Nat.lt_trichotomy first a.toNat with hlt | heq | hgt
    · have hoffset : a.toNat - first = a.toNat - (first + 1) + 1 := by omega
      rw [hoffset, List.getElem?_cons_succ]
      simp [Nat.succ_le_of_lt hlt, Nat.le_of_lt hlt, Nat.ne_of_lt hlt]
    · rw [heq, if_neg (Nat.not_succ_le_self _)]
      simp
    · have hbefore : ¬ first + 1 ≤ a.toNat := by omega
      simp [hbefore, Nat.not_le_of_lt hgt, Nat.ne_of_gt hgt]

end MemoryImage

namespace Scripted

/-- The machine after `n` bytes were read under inspection. -/
def inspected (m : Scripted) (n : Nat) : Scripted :=
  { m with inspection := false, inspectedReads := m.inspectedReads + n }

/-- The machine after the bytes from position `first` on were written. -/
def written (m : Scripted) (first : Nat) (data : List UInt8) : Scripted :=
  { m with memory := m.memory.overwrite first data, pokes := m.pokes + data.length }

/-- The first byte goes first. -/
theorem written_cons (m : Scripted) (first : Nat) (value : UInt8) (data : List UInt8) :
    m.written first (value :: data) =
      Scripted.written { m with
        pokes := m.pokes + 1
        memory := m.memory.set (Address.ofNat first) value } (first + 1) data := by
  simp only [written, MemoryImage.overwrite, List.length_cons, Nat.add_assoc, Nat.add_comm 1]

/-- What was read under inspection has been counted when the flag is lowered. -/
theorem run_inspecting {α : Type} {x : Action Scripted α} {m : Scripted} {r : Except Panic α}
    {n : Nat} (h : x.run { m with inspection := true } =
      (r, { m with inspection := true, inspectedReads := m.inspectedReads + n })) :
    (inspecting x).run m = (r, m.inspected n) := by
  rw [run] at h
  simp only [run, inspecting, Machine.setInspection, h, inspected]

/-- Under inspection a byte is read and counted, unless reading it panics. -/
theorem peek_cases (a : Address) {m : Scripted} (h : m.inspection = true) :
    (∃ value, (Machine.peek a).run m =
      (.ok value, { m with inspectedReads := m.inspectedReads + 1 })) ∨
    ∃ p, m.faults.panicOnRead = some a ∧
      (Machine.peek a : Action Scripted UInt8).run m = (.error p, m) := by
  by_cases hpanic : m.faults.panicOnRead = some a
  · exact .inr ⟨.text ("scripted panic reading " ++ a.text), hpanic, if_pos hpanic⟩
  · exact .inl ⟨m.memory.get a, (if_neg hpanic).trans (if_pos h)⟩

/-- Reading under inspection counts every byte up to the first one that panics. -/
theorem peekAll_cases (addresses : List Address) {m : Scripted} (h : m.inspection = true) :
    (∃ data, (peekAll addresses).run m =
      (.ok data, { m with inspectedReads := m.inspectedReads + addresses.length })) ∨
    ∃ p i a, addresses[i]? = some a ∧ m.faults.panicOnRead = some a ∧
      (peekAll addresses).run m =
        (.error p, { m with inspectedReads := m.inspectedReads + i }) := by
  induction addresses generalizing m with
  | nil => exact .inl ⟨[], rfl⟩
  | cons a rest ih =>
    rcases peek_cases a h with ⟨value, hpeek⟩ | ⟨p, hpanic, hpeek⟩
    · have hcount : ∀ n, m.inspectedReads + 1 + n = m.inspectedReads + (n + 1) := by omega
      rcases ih (m := { m with inspectedReads := m.inspectedReads + 1 }) h with
        ⟨data, hrest⟩ | ⟨p, i, b, hb, hpanic, hrest⟩
      · refine .inl ⟨value :: data, ?_⟩
        rw [peekAll, run_bind_of_ok hpeek, run_bind_of_ok hrest, hcount]
        rfl
      · refine .inr ⟨p, i + 1, b, hb, hpanic, ?_⟩
        rw [peekAll, run_bind_of_ok hpeek, run_bind_of_error hrest, hcount]
    · exact .inr ⟨p, 0, a, rfl, hpanic, run_bind_of_error hpeek⟩

theorem readByte_cases (a : Address) (m : Scripted) :
    (∃ value, (readByte a).run m = (.ok value, m.inspected 1)) ∨
      ∃ p, m.faults.panicOnRead = some a ∧ (readByte a).run m = (.error p, m.inspected 0) := by
  rcases peek_cases a (m := { m with inspection := true }) rfl with
    ⟨value, hpeek⟩ | ⟨p, hpanic, hpeek⟩
  · exact .inl ⟨value, run_inspecting hpeek⟩
  · exact .inr ⟨p, hpanic, run_inspecting hpeek⟩

/-- Writing leaves the bytes before the first one that panics written. -/
theorem pokeFrom_cases (start : Address) (offset : Nat) (data : List UInt8) (m : Scripted)
    (hroom : start.toNat + offset + data.length ≤ Address.spaceSize) :
    (pokeFrom start offset data).run m = (.ok (), m.written (start.toNat + offset) data) ∨
    ∃ p i, i < data.length ∧
      m.faults.panicOnWrite = some (Address.ofNat (start.toNat + offset + i)) ∧
      (pokeFrom start offset data).run m =
        (.error p, m.written (start.toNat + offset) (data.take i)) := by
  induction data generalizing offset m with
  | nil => exact .inl rfl
  | cons value rest ih =>
    rw [List.length_cons] at hroom
    by_cases hpanic : m.faults.panicOnWrite = some (Address.ofNat (start.toNat + offset))
    · have hpoke : (Machine.poke (Address.ofNat (start.toNat + offset)) value).run m =
          (.error (m.faults.payload "poke"), m) := if_pos hpanic
      refine .inr ⟨m.faults.payload "poke", 0, Nat.zero_lt_succ _, hpanic, ?_⟩
      rw [pokeFrom, run_bind_of_error hpoke]
      rfl
    · have hpoke : (Machine.poke (Address.ofNat (start.toNat + offset)) value).run m =
          (.ok (), { m with
            pokes := m.pokes + 1
            memory := m.memory.set (Address.ofNat (start.toNat + offset)) value }) :=
        if_neg hpanic
      -- The rest is written to a machine that has the first byte already.
      rcases ih (offset + 1) { m with
          pokes := m.pokes + 1
          memory := m.memory.set (Address.ofNat (start.toNat + offset)) value } (by omega) with
        hrest | ⟨p, i, hi, hpanic, hrest⟩
      · exact .inl (by rw [pokeFrom, run_bind_of_ok hpoke, hrest, written_cons, Nat.add_assoc])
      · refine .inr ⟨p, i + 1, Nat.succ_lt_succ hi, ?_, ?_⟩
        · rw [hpanic]
          congr 2
          omega
        · rw [pokeFrom, run_bind_of_ok hpoke, hrest, List.take_succ_cons, written_cons,
            Nat.add_assoc]

/-- A scripted machine answers whether an address may be written, and nothing else happens. -/
theorem firstDenied_run (map : RegionMap) (addresses : List Address) (m : Scripted) :
    ∃ denied, (map.firstDenied Machine.hasFeature addresses).run m = (.ok denied, m) := by
  induction addresses with
  | nil => exact ⟨none, rfl⟩
  | cons a rest ih =>
    have hallows : ∃ allowed, ((map.permission a).allows
        (Machine.hasFeature : Feature → Action Scripted Bool)).run m = (.ok allowed, m) := by
      cases map.permission a with
      | readOnly => exact ⟨false, rfl⟩
      | readWrite => exact ⟨true, rfl⟩
      | conditional needs =>
        cases needs
        exact ⟨m.battery, rfl⟩
    obtain ⟨allowed, hallowed⟩ := hallows
    rw [RegionMap.firstDenied, run_bind_of_ok hallowed]
    cases allowed with
    | true => exact ih
    | false => exact ⟨some a, rfl⟩

theorem checkWrite_cases (map : RegionMap) (start : Address) (size : Nat) (m : Scripted) :
    (∃ e, (map.checkWrite start size Machine.hasFeature).run m = (.ok (.error e), m)) ∨
      (checkRange start size = .ok () ∧
        (map.checkWrite start size Machine.hasFeature).run m = (.ok (.ok ()), m)) := by
  rw [RegionMap.checkWrite]
  cases hrange : checkRange start size with
  | error why => exact .inl ⟨_, rfl⟩
  | ok _ =>
    obtain ⟨denied, hdenied⟩ := firstDenied_run map (Address.range start size) m
    dsimp only
    rw [run_bind_of_ok hdenied]
    cases denied with
    | some a => exact .inl ⟨_, rfl⟩
    | none => exact .inr ⟨rfl, rfl⟩

end Scripted

/-! ### One operation -/

namespace MemoryOp

/-- The first address of the range of an operation. -/
def start : MemoryOp → Address
  | .read start _ => start
  | .write start _ => start

/-- The number of bytes in the range of an operation. -/
def size : MemoryOp → Nat
  | .read _ size => size
  | .write _ data => data.length

/-- The address that an operation must not touch, because the machine panics there. -/
def fault? (m : Scripted) : MemoryOp → Option Address
  | .read _ _ => m.faults.panicOnRead
  | .write _ _ => m.faults.panicOnWrite

/-- The machine after an operation has got through its first `n` bytes. -/
def upTo (n : Nat) (m : Scripted) : MemoryOp → Scripted
  | .read _ _ => m.inspected n
  | .write start data => m.written start.toNat (data.take n)

/-- The operation has panicked at a byte of its range and has got through the bytes before. -/
def CutShort (op : MemoryOp) (m left : Scripted) : Prop :=
  checkRange op.start op.size = .ok () ∧
    ∃ i < op.size, op.fault? m = some (Address.ofNat (op.start.toNat + i)) ∧ left = op.upTo i m

/-- The ways in which an operation ends. -/
inductive Ended (op : MemoryOp) (m : Scripted) :
    Except Panic (Outcome AccessReply) × Scripted → Prop
  | done (reply : AccessReply) : Ended op m (.ok (.ok reply), op.upTo op.size m)
  | refused (e : CommandError) : Ended op m (.ok (.error e), m)
  | panicked (p : Panic) {left : Scripted} : op.CutShort m left → Ended op m (.error p, left)

theorem ended_read (map : RegionMap) (start : Address) (size : Nat) (m : Scripted) :
    (MemoryOp.read start size).Ended m (((MemoryOp.read start size).perform map).run m) := by
  rw [perform, readRange]
  cases hrange : checkRange start size with
  | error why => exact .refused _
  | ok _ =>
    simp only [bind_assoc, pure_bind]
    rcases Scripted.peekAll_cases (Address.range start size)
        (m := { m with inspection := true }) rfl with ⟨data, hrun⟩ | ⟨p, i, a, ha, hpanic, hrun⟩
    · rw [Address.length_range] at hrun
      rw [run_bind_of_ok (Scripted.run_inspecting hrun)]
      exact .done _
    · rw [run_bind_of_error (Scripted.run_inspecting hrun)]
      -- The address at position `i` of the range is `i` bytes behind its start.
      simp only [Address.range, List.getElem?_map, Option.map_eq_some_iff,
        List.getElem?_eq_some_iff, List.getElem_range, List.length_range] at ha
      obtain ⟨_, ⟨hi, rfl⟩, rfl⟩ := ha
      exact .panicked p ⟨hrange, i, hi, hpanic, rfl⟩

theorem ended_write (map : RegionMap) (start : Address) (data : List UInt8) (m : Scripted) :
    (MemoryOp.write start data).Ended m (((MemoryOp.write start data).perform map).run m) := by
  rw [perform, writeRange, bind_assoc]
  rcases Scripted.checkWrite_cases map start data.length m with ⟨e, hcheck⟩ | ⟨hrange, hcheck⟩
  · rw [run_bind_of_ok hcheck]
    exact .refused e
  · rw [run_bind_of_ok hcheck]
    simp only [bind_assoc, pure_bind]
    rcases Scripted.pokeFrom_cases start 0 data m (add_le_of_checkRange hrange) with
      hpoke | ⟨p, i, hi, hpanic, hpoke⟩
    · have hdone : Ended (.write start data) m _ := .done (.written start data.length)
      rw [size, upTo, List.take_length] at hdone
      rw [run_bind_of_ok hpoke]
      exact hdone
    · rw [run_bind_of_error hpoke]
      exact .panicked p ⟨hrange, i, hi, hpanic, rfl⟩

/-- An operation does nothing, everything, or what comes before a panic. -/
theorem ended_perform (map : RegionMap) (op : MemoryOp) (m : Scripted) :
    op.Ended m ((op.perform map).run m) := by
  cases op with
  | read start size => exact ended_read map start size m
  | write start data => exact ended_write map start data m

/-! ### Batches -/

/-- The machine after an operation with the given outcome: if it was refused, it has done
nothing. -/
def after (op : MemoryOp) (m : Scripted) : Outcome AccessReply → Scripted
  | .ok _ => op.upTo op.size m
  | .error _ => m

/-- The machine after operations with the given outcomes, one after the other. -/
def afterAll (m : Scripted) (done : List (MemoryOp × Outcome AccessReply)) : Scripted :=
  done.foldl (fun m x => x.1.after m x.2) m

theorem perform_cases (map : RegionMap) (op : MemoryOp) (m : Scripted) :
    (∃ outcome, (op.perform map).run m = (.ok outcome, op.after m outcome)) ∨
      ∃ p left, (op.perform map).run m = (.error p, left) ∧ op.CutShort m left := by
  have hended := ended_perform map op m
  generalize (op.perform map).run m = r at hended ⊢
  cases hended with
  | done reply => exact .inl ⟨.ok reply, rfl⟩
  | refused e => exact .inl ⟨.error e, rfl⟩
  | panicked p hcut => exact .inr ⟨p, _, rfl, hcut⟩

/-- One of the operations was cut short. Those before it have ended, each with an outcome, and
those after it have not begun. -/
def AnyCutShort (map : RegionMap) (ops : List MemoryOp) (m left : Scripted) : Prop :=
  ∃ done op later outcomes before, ops = done ++ op :: later ∧
    (performAll map done).run m = (.ok outcomes, before) ∧
    before = afterAll m (done.zip outcomes) ∧ op.CutShort before left

/-- A batch runs to its end, or one of its operations is cut short. -/
theorem performAll_cases (map : RegionMap) (ops : List MemoryOp) (m : Scripted) :
    (∃ outcomes, (performAll map ops).run m = (.ok outcomes, afterAll m (ops.zip outcomes))) ∨
      ∃ p left, (performAll map ops).run m = (.error p, left) ∧ AnyCutShort map ops m left := by
  induction ops generalizing m with
  | nil => exact .inl ⟨[], rfl⟩
  | cons op rest ih =>
    rcases perform_cases map op m with ⟨outcome, hop⟩ | ⟨p, left, hop, hcut⟩
    · rcases ih (op.after m outcome) with ⟨outcomes, hrest⟩ | ⟨p, left, hrest, hcut⟩
      · refine .inl ⟨outcome :: outcomes, ?_⟩
        rw [performAll, run_bind_of_ok hop, run_bind_of_ok hrest]
        rfl
      · refine .inr ⟨p, left, ?_, ?_⟩
        · rw [performAll, run_bind_of_ok hop, run_bind_of_error hrest]
        · -- The operation that has ended joins those before the one that was cut short.
          obtain ⟨done, last, later, outcomes, _, rfl, hdone, rfl, hcut⟩ := hcut
          refine ⟨op :: done, last, later, outcome :: outcomes, _, rfl, ?_, rfl, hcut⟩
          rw [performAll, run_bind_of_ok hop, run_bind_of_ok hdone]
          rfl
    · refine .inr ⟨p, left, ?_, [], op, rest, [], m, rfl, rfl, rfl, hcut⟩
      rw [performAll, run_bind_of_error hop]

/-! ### What memory operations leave alone -/

/-- What the first bytes of any operation preserve, batches preserve, cut short or not. -/
theorem AnyCutShort.induction {P : Scripted → Prop} (hP : ∀ op n m, P m → P (upTo n m op))
    {map : RegionMap} {ops : List MemoryOp} {m left : Scripted}
    (h : AnyCutShort map ops m left) (hm : P m) : P left := by
  have hall : ∀ (done : List (MemoryOp × Outcome AccessReply)) m, P m → P (afterAll m done) := by
    intro done
    induction done with
    | nil => exact fun _ hm => hm
    | cons x rest ih =>
      intro m hm
      obtain ⟨op, e | reply⟩ := x
      · exact ih _ hm
      · exact ih _ (hP op op.size m hm)
  obtain ⟨done, op, later, outcomes, _, -, -, rfl, -, i, -, -, rfl⟩ := h
  exact hP op i _ (hall _ m hm)

end MemoryOp

/-- Nothing differs between two machines but memory, inspection flag, and the counts of inspected
reads and of writes. -/
def Scripted.SameButMemory (m left : Scripted) : Prop :=
  { left with
    memory := m.memory
    inspection := m.inspection
    inspectedReads := m.inspectedReads
    pokes := m.pokes } = m

theorem Scripted.SameButMemory.upTo {m left : Scripted} (h : m.SameButMemory left) (op : MemoryOp)
    (n : Nat) : m.SameButMemory (MemoryOp.upTo n left op) := by
  cases op <;> exact h

/-- No operation raises the inspection flag. -/
theorem MemoryOp.inspection_upTo (op : MemoryOp) (n : Nat) {m : Scripted}
    (h : m.inspection = false) : (MemoryOp.upTo n m op).inspection = false := by
  cases op with
  | read start size => rfl
  | write start data => exact h

end CommandBridge
