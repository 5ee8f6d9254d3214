import CommandBridge.Command.Admission
import CommandBridge.Proofs.Session.Calculus

/-!
# Who may write where

A write is checked twice, once when it is submitted and once when it runs, by the same
`RegionMap.checkWrite` over two monads. At submission every feature counts as present; when it
runs, the machine is asked. This module says what each of the two checks means:

* `RegionMap.checkStatic_eq_ok`: submission refuses the writes that touch a read-only address, and
  nothing else but ill-formed ranges;
* `RegionMap.checkWrite_run`: the machine is asked address by address, and a refusal names the
  first address of the range at which the answer was no (`RefusedAt`).

Together they leave one way for an admitted memory operation to fail
(`MemoryOp.perform_error_of_admitted`).
-/

namespace CommandBridge

open CommandBridge.Action

namespace RegionMap

/-! ### At submission -/

theorem firstDenied_const_true (map : RegionMap) (addresses : List Address) :
    Id.run (map.firstDenied (fun _ => pure true) addresses) = none ↔
      ∀ a ∈ addresses, map.permission a ≠ .readOnly := by
  induction addresses with
  | nil => simp [firstDenied]
  | cons a rest ih =>
    rw [List.forall_mem_cons, ← ih, firstDenied]
    cases hpermission : map.permission a <;> simp [Permission.allows]

/-- A write is admitted if its range is well-formed and no address of it is read-only. -/
theorem checkStatic_eq_ok {map : RegionMap} {start : Address} {size : Nat} :
    map.checkStatic start size = .ok () ↔
      checkRange start size = .ok () ∧
        ∀ a ∈ Address.range start size, map.permission a ≠ .readOnly := by
  rw [← firstDenied_const_true, checkStatic, checkWrite]
  cases hrange : checkRange start size with
  | error why => simp
  | ok _ =>
    generalize map.firstDenied (fun _ => (pure true : Id Bool)) (Address.range start size) = denied
    cases denied with
    | none => exact iff_of_true rfl ⟨rfl, rfl⟩
    | some a =>
      constructor
      · intro h
        cases h
      · rintro ⟨-, h⟩
        cases h

/-- A conditional permission comes from a region. -/
theorem exists_region_of_conditional {map : RegionMap} {a : Address} {needs : Feature}
    (h : map.permission a = .conditional needs) :
    ∃ r ∈ map.regions, r.contains a = true ∧ r.permission = .conditional needs := by
  rw [permission] at h
  cases hregion : map.regionAt a with
  | none =>
    rw [hregion] at h
    cases h
  | some r =>
    rw [hregion] at h
    obtain ⟨hhead, hcontains⟩ := Option.filter_eq_some_iff.mp hregion
    have hmem := List.mem_of_mem_head? hhead
    exact ⟨r, (List.dropWhile_sublist _).subset hmem, hcontains, h⟩

end RegionMap

/-! ### When the write runs -/

variable {σ : Type} [Machine σ] {map : RegionMap}

/-- The machine lets every address of the list be written, asked about one after the other from
state `m` on, and is in state `m'` then. -/
inductive Granted (map : RegionMap) : List Address → σ → σ → Prop
  | nil (m : σ) : Granted map [] m m
  | readWrite {a : Address} {rest : List Address} {m m' : σ} :
      map.permission a = .readWrite → Granted map rest m m' → Granted map (a :: rest) m m'
  | conditional {a : Address} {rest : List Address} {m asked m' : σ} {needs : Feature} :
      map.permission a = .conditional needs →
      (Machine.hasFeature needs).run m = (.ok true, asked) →
      Granted map rest asked m' → Granted map (a :: rest) m m'

/-- An address is granted if its permission allows writing. -/
theorem Granted.cons {a : Address} {rest : List Address} {m asked m' : σ}
    (hallows : ((map.permission a).allows Machine.hasFeature).run m = (.ok true, asked))
    (hrest : Granted map rest asked m') : Granted map (a :: rest) m m' := by
  cases hpermission : map.permission a with
  | readOnly =>
    rw [hpermission] at hallows
    cases hallows
  | readWrite =>
    rw [hpermission] at hallows
    cases hallows
    exact .readWrite hpermission hrest
  | conditional needs =>
    rw [hpermission] at hallows
    exact .conditional hpermission hallows hrest

/-- Of the addresses of a range, `a` is the first one that may not be written: it lies in a
region that depends on a feature, and the machine, asked about the addresses from state `m` on,
does not have the feature when it comes to `a`. -/
def RefusedAt (map : RegionMap) (start : Address) (size : Nat) (a : Address) (m : σ) : Prop :=
  ∃ lower upper asked answered needs r,
    Address.range start size = lower ++ a :: upper ∧ Granted map lower m asked ∧
      r ∈ map.regions ∧ r.contains a = true ∧ r.permission = .conditional needs ∧
      (Machine.hasFeature needs).run asked = (.ok false, answered)

namespace RegionMap

/-- A refusal names the first address that was not granted, and it is not a writable one. -/
theorem firstDenied_run_some {addresses : List Address} {m m' : σ} {a : Address}
    (h : (map.firstDenied Machine.hasFeature addresses).run m = (.ok (some a), m')) :
    ∃ lower upper asked, addresses = lower ++ a :: upper ∧ Granted map lower m asked ∧
      ((map.permission a).allows Machine.hasFeature).run asked = (.ok false, m') := by
  induction addresses generalizing m with
  | nil => cases h
  | cons b rest ih =>
    obtain ⟨allowed, asked, hallows, h⟩ := run_bind_eq_ok_iff.mp h
    cases allowed with
    | false =>
      cases h
      exact ⟨[], rest, m, rfl, .nil m, hallows⟩
    | true =>
      obtain ⟨lower, upper, last, rfl, hgranted, hdenied⟩ := ih h
      exact ⟨b :: lower, upper, last, rfl, .cons hallows hgranted, hdenied⟩

/-- If no address of the range is read-only, the check can only fail where the machine says no. -/
theorem checkWrite_run {start : Address} {size : Nat} {m m' : σ} {e : CommandError}
    (hrange : checkRange start size = .ok ())
    (hwritable : ∀ a ∈ Address.range start size, map.permission a ≠ .readOnly)
    (h : (map.checkWrite start size Machine.hasFeature).run m = (.ok (.error e), m')) :
    ∃ a, e = .permissionDenied a ∧ RefusedAt map start size a m := by
  rw [checkWrite, hrange] at h
  obtain ⟨denied, asked, hdenied, h⟩ := run_bind_eq_ok_iff.mp h
  cases denied with
  | none => cases h
  | some a =>
    cases h
    obtain ⟨lower, upper, last, hsplit, hgranted, hallows⟩ := firstDenied_run_some hdenied
    have hmem : a ∈ Address.range start size := by
      rw [hsplit]
      exact List.mem_append_right _ List.mem_cons_self
    refine ⟨a, rfl, ?_⟩
    cases hpermission : map.permission a with
    | readOnly => exact absurd hpermission (hwritable a hmem)
    | readWrite =>
      rw [hpermission] at hallows
      cases hallows
    | conditional needs =>
      rw [hpermission] at hallows
      obtain ⟨r, hr, hcontains, hneeds⟩ := exists_region_of_conditional hpermission
      exact ⟨lower, upper, last, _, needs, r, hsplit, hgranted, hr, hcontains, hneeds, hallows⟩

/-- If no address was denied, all were granted. -/
theorem firstDenied_run_none {addresses : List Address} {m m' : σ}
    (h : (map.firstDenied Machine.hasFeature addresses).run m = (.ok none, m')) :
    Granted map addresses m m' := by
  induction addresses generalizing m with
  | nil =>
    cases h
    exact .nil _
  | cons a rest ih =>
    obtain ⟨allowed, asked, hallows, h⟩ := run_bind_eq_ok_iff.mp h
    cases allowed with
    | false => cases h
    | true => exact .cons hallows (ih h)

/-- A write that passes the check was granted at each of its addresses. -/
theorem granted_of_checkWrite {start : Address} {size : Nat} {m m' : σ}
    (h : (map.checkWrite start size Machine.hasFeature).run m = (.ok (.ok ()), m')) :
    Granted map (Address.range start size) m m' := by
  rw [checkWrite] at h
  cases hrange : checkRange start size with
  | error why =>
    rw [hrange] at h
    cases h
  | ok _ =>
    rw [hrange] at h
    obtain ⟨denied, asked, hdenied, h⟩ := run_bind_eq_ok_iff.mp h
    cases denied with
    | none =>
      cases h
      exact firstDenied_run_none hdenied
    | some a => cases h

/-! ### Properties that checks and writes keep -/

theorem keeps_firstDenied {P : σ → Prop} (h : ∀ f, Keeps P (Machine.hasFeature f))
    (addresses : List Address) : Keeps P (map.firstDenied Machine.hasFeature addresses) := by
  induction addresses with
  | nil => exact .pure _
  | cons a rest ih =>
    have hallows : Keeps P ((map.permission a).allows (Machine.hasFeature : Feature → Action σ _)) := by
      cases map.permission a with
      | readOnly => exact .pure _
      | readWrite => exact .pure _
      | conditional needs => exact h needs
    refine hallows.bind fun allowed => ?_
    cases allowed with
    | true => exact ih
    | false => exact .pure _

/-- Checking a write only asks for features. -/
theorem keeps_checkWrite {P : σ → Prop} (h : ∀ f, Keeps P (Machine.hasFeature f))
    (start : Address) (size : Nat) : Keeps P (map.checkWrite start size Machine.hasFeature) := by
  rw [checkWrite]
  cases checkRange start size with
  | error why => exact .pure _
  | ok _ =>
    refine (keeps_firstDenied h _).bind fun denied => ?_
    cases denied <;> exact .pure _

end RegionMap

/-- Writing bytes keeps what each single write keeps. -/
theorem keeps_pokeFrom {P : σ → Prop} {start : Address} {offset : Nat} {data : List UInt8}
    (h : ∀ i < data.length, ∀ value,
      Keeps P (Machine.poke (Address.ofNat (start.toNat + (offset + i))) value)) :
    Keeps P (pokeFrom start offset data) := by
  induction data generalizing offset with
  | nil => exact .pure _
  | cons value rest ih =>
    refine (h 0 (Nat.zero_lt_succ _) value).bind fun _ => ih ?_
    intro i hi value
    have hpoke := h (i + 1) (Nat.succ_lt_succ hi) value
    rwa [show offset + (i + 1) = offset + 1 + i by omega] at hpoke

/-- A checked write keeps a property, whatever becomes of it, if writing keeps it wherever the
check has granted the write. -/
theorem keeps_writeRange {P : σ → Prop} {start : Address} {data : List UInt8}
    (hfeature : ∀ f, Keeps P (Machine.hasFeature f))
    (hpoke : ∀ m m' addresses, P m → Granted map addresses m m' →
      ∀ a ∈ addresses, ∀ value, Keeps P (Machine.poke a value)) :
    Keeps P (writeRange map start data) := by
  intro m hm
  have hkept : P ((map.checkWrite start data.length Machine.hasFeature).run m).2 :=
    RegionMap.keeps_checkWrite hfeature start data.length m hm
  rcases hcheck : (map.checkWrite start data.length Machine.hasFeature).run m with
    ⟨p | verdict, m'⟩
  · rw [writeRange, run_bind_of_error hcheck]
    rwa [hcheck] at hkept
  · rw [writeRange, run_bind_of_ok hcheck]
    rw [hcheck] at hkept
    cases verdict with
    | error e => exact hkept
    | ok _ =>
      -- Every byte goes to an address of the range that was checked.
      have hgranted := RegionMap.granted_of_checkWrite hcheck
      refine Keeps.bind (keeps_pokeFrom ?_) (fun _ => .pure _) m' hkept
      intro i hi value
      refine hpoke m m' _ hm hgranted _ ?_ value
      exact List.mem_map.mpr ⟨i, List.mem_range.mpr hi, by rw [Nat.zero_add]⟩

/-! ### Memory operations -/

theorem refuse_eq_ok {verdict : Except Misuse Unit} :
    refuse verdict = .ok () ↔ verdict = .ok () := by
  cases verdict with
  | ok _ => exact ⟨fun _ => rfl, fun _ => rfl⟩
  | error e =>
    constructor
    · intro h
      cases h
    · intro h
      cases h

theorem map_eq_error {ε α β : Type} {f : α → β} {r : Except ε α} {e : ε} :
    r.map f = .error e ↔ r = .error e := by
  cases r <;> simp [Except.map]

theorem Limits.checkAll_cons_eq_ok {limits : Limits} {op : MemoryOp} {rest : List MemoryOp} :
    limits.checkAll (op :: rest) = .ok () ↔
      limits.checkOp op = .ok () ∧ limits.checkAll rest = .ok () := by
  rw [checkAll]
  cases limits.checkOp op with
  | error e => simp
  | ok _ => simp

namespace MemoryOp

/-- A read that was admitted does not fail; a write that was admitted fails only where the
machine lacks a feature that it needs. -/
theorem perform_error_of_admitted {limits : Limits} {op : MemoryOp} {m m' : σ} {e : CommandError}
    (hvalid : limits.checkOp op = .ok ())
    (h : (op.perform limits.regions).run m = (.ok (.error e), m')) :
    ∃ start data a, op = .write start data ∧ e = .permissionDenied a ∧
      RefusedAt limits.regions start data.length a m := by
  cases op with
  | read start size =>
    have hrange : checkRange start size = .ok () := refuse_eq_ok.mp hvalid
    obtain ⟨outcome, t, hread, h⟩ := run_bind_eq_ok_iff.mp h
    rw [readRange, hrange] at hread
    obtain ⟨values, t', -, hread⟩ := run_bind_eq_ok_iff.mp hread
    cases hread
    cases h
  | write start data =>
    obtain ⟨hrange, hwritable⟩ := RegionMap.checkStatic_eq_ok.mp hvalid
    obtain ⟨outcome, t, hwrite, h⟩ := run_bind_eq_ok_iff.mp h
    obtain ⟨verdict, asked, hcheck, hwrite⟩ := run_bind_eq_ok_iff.mp hwrite
    cases verdict with
    | error e' =>
      -- Submission has ruled out read-only addresses, so the machine has said no.
      cases hwrite
      cases h
      obtain ⟨a, he, hrefused⟩ := RegionMap.checkWrite_run hrange hwritable hcheck
      exact ⟨start, data, a, rfl, he, hrefused⟩
    | ok _ =>
      obtain ⟨_, t', -, hwrite⟩ := run_bind_eq_ok_iff.mp hwrite
      cases hwrite
      cases h

/-- The operations of an admitted batch fail in no other way. The machine is asked in the state
in which the operations before have left it. -/
theorem performAll_error_of_admitted {limits : Limits} {ops : List MemoryOp} {m m' : σ}
    {outcomes : List (Outcome AccessReply)} {i : Nat} {e : CommandError}
    (hvalid : limits.checkAll ops = .ok ())
    (h : (performAll limits.regions ops).run m = (.ok outcomes, m'))
    (he : outcomes[i]? = some (.error e)) :
    ∃ start data a earlier before, ops[i]? = some (.write start data) ∧
      e = .permissionDenied a ∧
      (performAll limits.regions (ops.take i)).run m = (.ok earlier, before) ∧
      RefusedAt limits.regions start data.length a before := by
  induction ops generalizing m outcomes i with
  | nil =>
    cases h
    simp at he
  | cons op rest ih =>
    have hop := Limits.checkAll_cons_eq_ok.mp hvalid
    obtain ⟨outcome, t, hfirst, h⟩ := run_bind_eq_ok_iff.mp h
    obtain ⟨later, t', hrest, h⟩ := run_bind_eq_ok_iff.mp h
    cases h
    cases i with
    | zero =>
      obtain rfl : outcome = .error e := by simpa using he
      obtain ⟨start, data, a, rfl, he, hrefused⟩ := perform_error_of_admitted hop.1 hfirst
      exact ⟨start, data, a, [], m, rfl, he, rfl, hrefused⟩
    | succ i =>
      obtain ⟨start, data, a, earlier, before, hget, he, hearlier, hrefused⟩ :=
        ih hop.2 hrest (by simpa using he)
      refine ⟨start, data, a, outcome :: earlier, before, hget, he, ?_, hrefused⟩
      rw [List.take_succ_cons, performAll]
      exact run_bind_eq_ok_iff.mpr
        ⟨outcome, t, hfirst, run_bind_eq_ok_iff.mpr ⟨earlier, before, hearlier, rfl⟩⟩

end MemoryOp

end CommandBridge
