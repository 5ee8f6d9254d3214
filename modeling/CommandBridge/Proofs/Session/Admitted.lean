import CommandBridge.Proofs.Memory.Writing

/-!
# What can go wrong with an admitted request

Admission and the handlers check the arguments of a request independently of each other. For a
session that has the regions and channels which admission knows (`Session.Fits`), the second check
finds nothing that the first one has let through: an admitted request fails only because nothing
is loaded, because the machine reports an error or panics, or because the machine lacks a feature
that a write needs (`Session.handle_error_of_admitted`). The same goes for the operations of a
batch (`Session.handle_batch_of_admitted`).

Two facts about holds are behind this: a hold that was admitted lasts at least one tick, and
milliseconds are never rounded down to no ticks at all (`ticksOfMillis_ne_zero`).
-/

namespace CommandBridge

open CommandBridge.Action

/-- A time in milliseconds is at least one tick. -/
theorem ticksOfMillis_ne_zero (ms : UInt64) (rate : Binary64) : ticksOfMillis ms rate ≠ 0 := by
  rw [ticksOfMillis]
  split
  case isTrue h =>
    have hone : 1 ≤ (((Binary64.ofNat ms.toNat).mul rate).div (Binary64.ofNat 1000)).roundAway := by
      simp only [Bool.and_eq_true, decide_eq_true_eq] at h
      exact h.2
    intro hzero
    have hmod := congrArg UInt64.toNat hzero
    rw [UInt64.toNat_ofNat_of_lt' (by simp only [UInt64.size]; omega), UInt64.toNat_zero] at hmod
    omega
  case isFalse => decide

/-- Whether a request only looks at things, or pauses or resumes: its handler refuses nothing. -/
def Request.isPlain : Request → Bool
  | .readByte _ | .inputStatus | .pause | .resume | .status => true
  | _ => false

/-- The bytes that a request by itself writes, and where. -/
def Request.write? : Request → Option (Address × List UInt8)
  | .writeByte a value => some (a, [value])
  | .writeRange start data => some (start, data)
  | _ => none

namespace Session

variable {σ : Type}

/-- The session has the regions and the channels that admission knows of. -/
structure Fits (limits : Limits) (s : Session σ) : Prop where
  regions_eq : s.regions = limits.regions
  count_eq : s.overlays.count = limits.channelCount

variable {limits : Limits} {s s' : Session σ} {request : Request} {e : CommandError}

/-! ### Overlays -/

/-- An admitted hold has a duration in ticks, and a positive one. -/
theorem holdTicks_of_check {hold : Option Hold} (h : Limits.checkHold hold = .ok ()) :
    ∃ duration, s.holdTicks hold = .ok duration ∧ duration ≠ 0 := by
  cases hold with
  | none => exact ⟨1, rfl, by decide⟩
  | some hold =>
    have hcheck : hold.check = .ok () := h
    refine ⟨hold.duration s.tickRate, by rw [holdTicks, hcheck]; rfl, ?_⟩
    cases hold with
    | ticks count =>
      intro hzero
      have hcount : count = 0 := hzero
      rw [Hold.check, if_pos hcount] at hcheck
      cases hcheck
    | millis ms =>
      rw [Hold.duration]
      exact ticksOfMillis_ne_zero _ s.tickRate

theorem checkOverlay_eq_ok {c : Channel} {hold : Option Hold} :
    limits.checkOverlay c hold = .ok () ↔
      c.index < limits.channelCount ∧ Limits.checkHold hold = .ok () := by
  rw [Limits.checkOverlay, refuse_eq_ok, Limits.checkChannel]
  by_cases hc : c.index < limits.channelCount
  · rw [if_pos hc]
    exact ⟨fun h => ⟨hc, h⟩, fun h => h.2⟩
  · rw [if_neg hc]
    constructor
    · intro h
      cases h
    · intro h
      exact absurd h.1 hc

/-- A change of overlays that is possible is made. -/
theorem changeOverlay_run_of_ok {c : Channel}
    {change : Session σ → Except Misuse (Option Tick × OverlaySet)} {lapse : Option Tick}
    {overlays : OverlaySet} (h : change s = .ok (lapse, overlays)) :
    (changeOverlay c change).run s =
      (.ok (.ok (.overlay c s.tick lapse)), { s with overlays := overlays }) := by
  rw [Action.run, changeOverlay, h]

/-- An admitted overlay is put in place. -/
theorem exists_place {c : Channel} {set clear : Buttons} {hold : Option Hold}
    {f : Overlay → OverlayEntry → Overlay} (hfits : s.Fits limits)
    (hvalid : limits.checkOverlay c hold = .ok ()) :
    ∃ lapse overlays,
      (do let duration ← s.holdTicks hold
          s.overlays.place c set clear s.tick duration f) = .ok (lapse, overlays) := by
  obtain ⟨hc, hhold⟩ := checkOverlay_eq_ok.mp hvalid
  obtain ⟨duration, hticks, hpos⟩ := holdTicks_of_check (s := s) hhold
  rw [← hfits.count_eq] at hc
  exact ⟨_, _, place_change_eq_ok.mpr ⟨duration, hticks, hpos, hc, rfl, rfl⟩⟩

/-! ### Handlers -/

theorem useSlot_eq_error {slot : UInt8} {x : Action σ (Except MachineError Unit)}
    (h : (useSlot slot x).run s = (.ok (.error e), s')) : ∃ why, e = .ofMachine why := by
  obtain ⟨answer, t, -, h⟩ := run_bind_eq_ok_iff.mp h
  cases answer with
  | ok _ => cases h
  | error why =>
    cases h
    exact ⟨why, rfl⟩

variable [Machine σ]

theorem access_eq_error {op : MemoryOp} (h : (access op).run s = (.ok (.error e), s')) :
    ∃ m, (op.perform s.regions).run s.machine = (.ok (.error e), m) := by
  obtain ⟨_, _, ⟨⟩, h⟩ := run_bind_eq_ok_iff.mp h
  obtain ⟨outcome, t, hperform, h⟩ := run_bind_eq_ok_iff.mp h
  rw [onMachine, run_onPart] at hperform
  obtain ⟨hanswer, -⟩ := Prod.mk.inj hperform
  obtain ⟨hmap, -⟩ := Prod.mk.inj h
  rw [map_eq_error.mp (Except.ok.inj hmap)] at hanswer
  exact ⟨_, Prod.ext hanswer rfl⟩

theorem batch_eq_ok {ops : List MemoryOp} {outcome : Outcome Reply}
    (h : (batch ops).run s = (.ok outcome, s')) :
    ∃ outcomes m, (performAll s.regions ops).run s.machine = (.ok outcomes, m) ∧
      outcome = .ok (.batch outcomes) := by
  obtain ⟨_, _, ⟨⟩, h⟩ := run_bind_eq_ok_iff.mp h
  obtain ⟨outcomes, t, hperform, h⟩ := run_bind_eq_ok_iff.mp h
  rw [onMachine, run_onPart] at hperform
  obtain ⟨hanswer, -⟩ := Prod.mk.inj hperform
  cases h
  exact ⟨outcomes, _, Prod.ext hanswer rfl, rfl⟩

theorem respond_of_isPlain (hplain : request.isPlain = true) {outcome : Outcome Reply}
    (h : (respond request).run s = (.ok outcome, s')) :
    ∃ reply, outcome = .ok reply ∧ ∀ outcomes, reply ≠ .batch outcomes := by
  cases request with
  | readByte a =>
    obtain ⟨value, _, -, h⟩ := run_bind_eq_ok_iff.mp h
    cases h
    exact ⟨_, rfl, by simp⟩
  | inputStatus =>
    obtain ⟨_, _, ⟨⟩, h⟩ := run_bind_eq_ok_iff.mp h
    obtain ⟨raws, _, -, h⟩ := run_bind_eq_ok_iff.mp h
    cases h
    exact ⟨_, rfl, by simp⟩
  | pause =>
    cases h
    exact ⟨_, rfl, by simp⟩
  | resume =>
    cases h
    exact ⟨_, rfl, by simp⟩
  | status =>
    obtain ⟨_, _, ⟨⟩, h⟩ := run_bind_eq_ok_iff.mp h
    obtain ⟨loaded, _, -, h⟩ := run_bind_eq_ok_iff.mp h
    obtain ⟨battery, _, -, h⟩ := run_bind_eq_ok_iff.mp h
    cases h
    exact ⟨_, rfl, by simp⟩
  | _ => cases hplain

/-- An admitted request that is served fails because the machine reports an error, or because it
lacks a feature for a write. -/
theorem respond_error_of_admitted (hfits : s.Fits limits) (hvalid : limits.check request = .ok ())
    (h : (respond request).run s = (.ok (.error e), s')) :
    (∃ why, e = .ofMachine why) ∨
      ∃ start data a, request.write? = some (start, data) ∧ e = .permissionDenied a ∧
        RefusedAt limits.regions start data.length a s.machine := by
  have haccess : ∀ op, limits.checkOp op = .ok () → (access op).run s = (.ok (.error e), s') →
      ∃ start data a, op = .write start data ∧ e = .permissionDenied a ∧
        RefusedAt limits.regions start data.length a s.machine := by
    intro op hop h
    obtain ⟨m, hperform⟩ := access_eq_error h
    rw [hfits.regions_eq] at hperform
    exact MemoryOp.perform_error_of_admitted hop hperform
  cases request with
  | readRange start size =>
    obtain ⟨_, _, _, ⟨⟩, _⟩ := haccess (.read start size) hvalid h
  | writeByte a value =>
    obtain ⟨start, data, a, ⟨⟩, he, hrefused⟩ := haccess (.write a [value]) hvalid h
    exact .inr ⟨_, _, a, rfl, he, hrefused⟩
  | writeRange start data =>
    obtain ⟨start, data, a, ⟨⟩, he, hrefused⟩ := haccess (.write start data) hvalid h
    exact .inr ⟨_, _, a, rfl, he, hrefused⟩
  | batch ops =>
    obtain ⟨outcomes, m, -, ⟨⟩⟩ := batch_eq_ok h
  | setOverlay c set clear hold =>
    obtain ⟨lapse, overlays, hplace⟩ := exists_place hfits hvalid
    rw [respond, setOverlay, changeOverlay_run_of_ok hplace] at h
    cases h
  | clearOverlay c buttons =>
    have hc : c.index < s.overlays.count := by
      rw [hfits.count_eq]
      by_cases hc : c.index < limits.channelCount
      · exact hc
      · rw [Limits.check, refuse_eq_ok, Limits.checkChannel, if_neg hc] at hvalid
        cases hvalid
    rw [respond, clearOverlay,
      changeOverlay_run_of_ok (clearOverlay_change_eq_ok.mpr ⟨hc, rfl, rfl⟩)] at h
    cases h
  | setState c buttons hold =>
    obtain ⟨lapse, overlays, hplace⟩ := exists_place hfits hvalid
    rw [respond, setState, changeOverlay_run_of_ok hplace] at h
    cases h
  | saveState slot => exact .inl (useSlot_eq_error h)
  | loadState slot => exact .inl (useSlot_eq_error h)
  | readByte _ | inputStatus | pause | resume | status =>
    obtain ⟨reply, hanswer, -⟩ := respond_of_isPlain rfl h
    cases hanswer

/-- Only a batch is answered with the outcomes of a batch. -/
theorem respond_eq_batch {outcomes : List (Outcome AccessReply)}
    (h : (respond request).run s = (.ok (.ok (.batch outcomes)), s')) :
    ∃ ops m, request = .batch ops ∧
      (performAll s.regions ops).run s.machine = (.ok outcomes, m) := by
  have haccess : ∀ op, (access op).run s ≠ (.ok (.ok (.batch outcomes)), s') := by
    intro op h
    obtain ⟨_, _, ⟨⟩, h⟩ := run_bind_eq_ok_iff.mp h
    obtain ⟨outcome, _, -, h⟩ := run_bind_eq_ok_iff.mp h
    cases outcome <;> cases h
  have hoverlay : ∀ c change, (changeOverlay c change).run s ≠ (.ok (.ok (.batch outcomes)), s') := by
    intro c change h
    rw [Action.run, changeOverlay] at h
    split at h <;> cases h
  have hslot : ∀ slot x, (useSlot slot x).run s ≠ (.ok (.ok (.batch outcomes)), s') := by
    intro slot x h
    obtain ⟨answer, _, -, h⟩ := run_bind_eq_ok_iff.mp h
    cases answer <;> cases h
  cases request with
  | batch ops =>
    obtain ⟨outcomes', m, hperform, ⟨⟩⟩ := batch_eq_ok h
    exact ⟨ops, m, rfl, hperform⟩
  | readRange start size => exact absurd h (haccess _)
  | writeByte a value => exact absurd h (haccess _)
  | writeRange start data => exact absurd h (haccess _)
  | setOverlay c set clear hold => exact absurd h (hoverlay _ _)
  | clearOverlay c buttons => exact absurd h (hoverlay _ _)
  | setState c buttons hold => exact absurd h (hoverlay _ _)
  | saveState slot => exact absurd h (hslot _ _)
  | loadState slot => exact absurd h (hslot _ _)
  | readByte _ | inputStatus | pause | resume | status =>
    obtain ⟨reply, hanswer, hnot⟩ := respond_of_isPlain rfl h
    cases hanswer
    exact absurd rfl (hnot outcomes)

/-! ### Whole requests -/

theorem outcomeOf_eq_error {α : Type} {r : Except Panic (Outcome α)} (h : outcomeOf r = .error e) :
    r = .ok (.error e) ∨ ∃ p, e = .internal (.handlerPanicked p) := by
  cases r with
  | ok outcome => exact .inl (congrArg Except.ok h)
  | error p => exact .inr ⟨p, (Except.error.inj h).symm⟩

theorem outcomeOf_eq_ok {α : Type} {r : Except Panic (Outcome α)} {a : α}
    (h : outcomeOf r = .ok a) : r = .ok (.ok a) := by
  cases r with
  | ok outcome => exact congrArg Except.ok h
  | error p => cases h

/-- What can go wrong with an admitted request. A refused write is refused in the state in which
the machine is when the request is served. -/
theorem handle_error_of_admitted (hfits : s.Fits limits) (hvalid : limits.check request = .ok ())
    (h : outcomeOf ((handle request).run s).1 = .error e) :
    e = .preconditionUnmet .noSession ∨ (∃ p, e = .internal (.handlerPanicked p)) ∨
      (∃ why, e = .ofMachine why) ∨
      ∃ m start data a, ServedAt request s m ∧ request.write? = some (start, data) ∧
        e = .permissionDenied a ∧ RefusedAt limits.regions start data.length a m := by
  obtain ⟨m, ⟨hserved, hrun⟩ | ⟨p, hrun⟩ | hrun⟩ := handle_cases request s
  · rw [hrun] at h
    rcases outcomeOf_eq_error h with hanswer | hpanic
    · have hfits' : Fits limits { s with machine := m } := ⟨hfits.regions_eq, hfits.count_eq⟩
      rcases respond_error_of_admitted hfits' hvalid (Prod.ext hanswer rfl) with
        hwhy | ⟨start, data, a, hwrite, he, hrefused⟩
      · exact .inr (.inr (.inl hwhy))
      · exact .inr (.inr (.inr ⟨m, start, data, a, hserved, hwrite, he, hrefused⟩))
    · exact .inr (.inl hpanic)
  · rw [hrun] at h
    exact .inr (.inl ⟨p, (Except.error.inj h).symm⟩)
  · rw [hrun] at h
    exact .inl (Except.error.inj h).symm

/-- What can go wrong with an operation of an admitted batch. A refused write is refused in the
state in which the operations before it have left the machine. -/
theorem handle_batch_of_admitted (hfits : s.Fits limits) (hvalid : limits.check request = .ok ())
    {outcomes : List (Outcome AccessReply)} {i : Nat}
    (h : outcomeOf ((handle request).run s).1 = .ok (.batch outcomes))
    (he : outcomes[i]? = some (.error e)) :
    ∃ ops m start data a earlier before, request = .batch ops ∧ ServedAt request s m ∧
      ops[i]? = some (.write start data) ∧ e = .permissionDenied a ∧
      (performAll limits.regions (ops.take i)).run m = (.ok earlier, before) ∧
      RefusedAt limits.regions start data.length a before := by
  obtain ⟨m, ⟨hserved, hrun⟩ | ⟨p, hrun⟩ | hrun⟩ := handle_cases request s
  · rw [hrun] at h
    obtain ⟨ops, m', rfl, hperform⟩ := respond_eq_batch (Prod.ext (outcomeOf_eq_ok h) rfl)
    have hall : limits.checkAll ops = .ok () := by
      rw [Limits.check, Limits.checkBatch] at hvalid
      split at hvalid
      · cases hvalid
      · split at hvalid
        · cases hvalid
        · exact hvalid
    rw [hfits.regions_eq] at hperform
    obtain ⟨start, data, a, earlier, before, hget, he, hearlier, hrefused⟩ :=
      MemoryOp.performAll_error_of_admitted hall hperform he
    exact ⟨ops, m, start, data, a, earlier, before, rfl, hserved, hget, he, hearlier, hrefused⟩
  · rw [hrun] at h
    cases h
  · rw [hrun] at h
    cases h

end Session

end CommandBridge
