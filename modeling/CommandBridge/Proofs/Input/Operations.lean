import CommandBridge.Proofs.Input.Masks

/-!
# Overlays under operations in any order

Five operations change the overlays of all channels: two that hold buttons, clearing, expiry and
reset. `OverlaySet.perform` is one operation with its answer; for a list of operations
`OverlaySet.after` is the set that they leave and `OverlaySet.answers` what they answer. Masks,
ticks and durations are arbitrary, ticks need not come in order, and channels need not exist.

Two functions say what an operation does without the set of the other channels:

* `OverlayOp.answer` is what it answers, which depends on the number of channels only
  (`OverlaySet.perform_fst`). A refusal names what is wrong (`OverlayOp.misuse?`), and the set stays
  as it was;
* `OverlayOp.effect` is what it does to the overlay at one position, which depends on that overlay
  only (`OverlaySet.overlays_perform`).

Both are about one operation; `OverlaySet.overlays_after` is about many. As every effect keeps
overlays well-formed, so are all that operations lead to (`OverlaySet.wellFormed_after`). What that
means for an observer is in `OverlaySet.masks_are_unions`.
-/

namespace CommandBridge

open OverlaySet (cleared)

/-- What can be done to the overlays of all channels. -/
inductive OverlayOp
  | setOverlay (channel : Channel) (set clear : Buttons) (now : Tick) (duration : UInt64)
  | setState (channel : Channel) (buttons : Buttons) (now : Tick) (duration : UInt64)
  | clearOverlay (channel : Channel) (buttons : Option Buttons)
  | expire (now : Tick)
  | reset
  deriving DecidableEq, Repr

/-- What is answered: a refusal, or the tick at which something lapses if the operation has put
something in place. -/
abbrev OverlayAnswer : Type := Except Misuse (Option Tick)

namespace OverlayOp

/-- Why a channel is unknown among `count` channels, if it is. -/
def unknown? (count : Nat) (c : Channel) : Option Misuse :=
  if c.index < count then none else some (.unknownChannel c count)

/-- What is wrong with an operation on the overlays of `count` channels, if anything. -/
def misuse? (count : Nat) : OverlayOp → Option Misuse
  | setOverlay c _ _ _ duration => if duration = 0 then some .emptyHold else unknown? count c
  | setState c _ _ duration => if duration = 0 then some .emptyHold else unknown? count c
  | clearOverlay c _ => unknown? count c
  | expire _ => none
  | reset => none

/-- The entry that an operation puts in place. -/
def entry? : OverlayOp → Option OverlayEntry
  | setOverlay _ set clear now duration => some ⟨now.offset duration, set, clear⟩
  | setState _ buttons now duration => some ⟨now.offset duration, buttons, Buttons.none⟩
  | _ => none

/-- What an operation answers. An entry without bits never lapses, as it is not kept. -/
def answer (count : Nat) (op : OverlayOp) : OverlayAnswer :=
  match op.misuse? count with
  | some why => .error why
  | none => .ok (op.entry?.bind fun e => if e.isEmpty then none else some e.lapse)

/-- What an operation does to the overlay at position `i`. -/
def effect (i : Nat) : OverlayOp → Overlay → Overlay
  | setOverlay c set clear now duration, o =>
    if c.index = i ∧ duration ≠ 0 then o.hold ⟨now.offset duration, set, clear⟩ else o
  | setState c buttons now duration, o =>
    if c.index = i ∧ duration ≠ 0 then
      Overlay.replace ⟨now.offset duration, buttons, Buttons.none⟩
    else o
  | clearOverlay c buttons, o => if c.index = i then cleared buttons o else o
  | expire now, o => o.expire now
  | reset, _ => Overlay.neutral

theorem wellFormed_effect {o : Overlay} (h : o.WellFormed) (i : Nat) (op : OverlayOp) :
    (op.effect i o).WellFormed := by
  cases op with
  | setOverlay c set clear now duration =>
    rw [effect]
    split
    · exact Overlay.wellFormed_hold h _
    · exact h
  | setState c buttons now duration =>
    rw [effect]
    split
    · exact Overlay.wellFormed_replace rfl
    · exact h
  | clearOverlay c buttons =>
    rw [effect]
    split
    · cases buttons with
      | none => exact Overlay.wellFormed_neutral
      | some buttons => exact Overlay.wellFormed_release h buttons
    · exact h
  | expire now => exact Overlay.wellFormed_expire h now
  | reset => exact Overlay.wellFormed_neutral

/-- What a list of operations does to the overlay at position `i`. -/
def effects (i : Nat) (ops : List OverlayOp) (o : Overlay) : Overlay :=
  ops.foldl (fun o op => op.effect i o) o

theorem wellFormed_effects {o : Overlay} (h : o.WellFormed) (i : Nat) (ops : List OverlayOp) :
    (effects i ops o).WellFormed := by
  induction ops generalizing o with
  | nil => exact h
  | cons op rest ih => exact ih (wellFormed_effect h i op)

end OverlayOp

/-! ### What an overlay shows of its entries -/

namespace Buttons

theorem isAll_iff {b : Buttons} : b.isAll = true ↔ b = all := by
  simp [isAll]

theorem compl_eq_all {b : Buttons} : b.compl = all ↔ b = none := by
  constructor
  · intro h
    rw [← compl_compl b, h]
    rfl
  · rintro rfl
    rfl

/-- No set of a list has a button if the union has none. -/
theorem eq_none_of_mem {l : List Buttons} (h : unionAll l = none) {b : Buttons} (hb : b ∈ l) :
    b = none := by
  apply ext_test
  intro i
  have hi : l.any (·.test i) = false := by rw [← test_unionAll, h, test_none]
  rw [test_none]
  exact eq_false_of_ne_true (List.any_eq_false.mp hi b hb)

end Buttons

namespace Overlay

/-- The number of entries that have not lapsed. -/
def pending (o : Overlay) : Nat := o.entries.length

variable {o : Overlay}

/-- Only without entries is raw input let through: every entry holds a button. -/
theorem isNeutral_iff (h : o.WellFormed) : o.isNeutral = true ↔ o.pending = 0 := by
  rw [pending, List.length_eq_zero_iff]
  constructor
  · intro hneutral
    rw [isNeutral, Bool.and_eq_true, Buttons.isEmpty_iff, Buttons.isAll_iff, h.forced_eq,
      h.allowed_eq, Buttons.compl_eq_all] at hneutral
    refine List.eq_nil_iff_forall_not_mem.mpr fun e he => ?_
    -- Masks that let everything through are unions of empty masks, but no entry is empty.
    have hempty : e.isEmpty = true := OverlayEntry.isEmpty_iff.mpr
      ⟨Buttons.eq_none_of_mem hneutral.2 (List.mem_map_of_mem he),
        Buttons.eq_none_of_mem hneutral.1 (List.mem_map_of_mem he)⟩
    simp [h.nonempty e he] at hempty
  · intro hnone
    rw [isNeutral, h.forced_eq, h.allowed_eq, hnone]
    decide

/-- The first entry is one that lapses no later than the others. -/
theorem nextLapse_eq_some_iff (h : o.WellFormed) {t : Tick} :
    o.nextLapse = some t ↔ (∃ e ∈ o.entries, e.lapse = t) ∧ ∀ e ∈ o.entries, t ≤ e.lapse := by
  have hsorted := h.sorted
  rw [nextLapse]
  cases hentries : o.entries with
  | nil => simp
  | cons first rest =>
    rw [hentries] at hsorted
    have hfirst : ∀ e ∈ first :: rest, first.lapse ≤ e.lapse := by
      intro e he
      rcases List.mem_cons.mp he with rfl | he
      · exact Nat.le_refl _
      · exact (List.pairwise_cons.mp hsorted).1 e he
    constructor
    · intro hlapse
      obtain rfl : first.lapse = t := Option.some.inj hlapse
      exact ⟨⟨first, List.mem_cons_self, rfl⟩, hfirst⟩
    · rintro ⟨⟨e, he, rfl⟩, hleast⟩
      refine congrArg some (Tick.ext_toNat (Nat.le_antisymm ?_ ?_))
      · exact hfirst e he
      · exact hleast first List.mem_cons_self

/-- What has lapsed by a tick is gone. -/
theorem lt_lapse_of_mem_expire (h : o.WellFormed) {now : Tick} {e : OverlayEntry}
    (he : e ∈ (o.expire now).entries) : now < e.lapse := by
  rw [entries_expire h] at he
  exact of_decide_eq_true (List.mem_filter.mp he).2

end Overlay

namespace OverlaySet

/-- What is answered, and the set that is there afterwards. After a refusal that is the old one. -/
def settle (s : OverlaySet) :
    Except Misuse (Option Tick × OverlaySet) → OverlayAnswer × OverlaySet
  | .ok (lapse, s') => (.ok lapse, s')
  | .error why => (.error why, s)

/-- Performs one operation. -/
def perform (s : OverlaySet) : OverlayOp → OverlayAnswer × OverlaySet
  | .setOverlay c set clear now duration => s.settle (s.setOverlay c set clear now duration)
  | .setState c buttons now duration => s.settle (s.setState c buttons now duration)
  | .clearOverlay c buttons => s.settle ((s.clearOverlay c buttons).map fun s' => (none, s'))
  | .expire now => (.ok none, s.expire now)
  | .reset => (.ok none, s.reset)

/-- The set that a list of operations leaves. -/
def after (s : OverlaySet) (ops : List OverlayOp) : OverlaySet :=
  ops.foldl (fun s op => (s.perform op).2) s

/-- What a list of operations answers. -/
def answers (s : OverlaySet) : List OverlayOp → List OverlayAnswer
  | [] => []
  | op :: rest => (s.perform op).1 :: (s.perform op).2.answers rest

@[simp] theorem after_cons (s : OverlaySet) (op : OverlayOp) (rest : List OverlayOp) :
    s.after (op :: rest) = (s.perform op).2.after rest := rfl

/-! ### One operation -/

variable {s : OverlaySet}

theorem settle_place (s : OverlaySet) (c : Channel) (set clear : Buttons) (now : Tick)
    (duration : UInt64) (f : Overlay → OverlayEntry → Overlay) :
    s.settle (s.place c set clear now duration f) =
      if duration = 0 then (.error .emptyHold, s)
      else if c.index < s.count then
        (.ok (if (OverlayEntry.mk (now.offset duration) set clear).isEmpty then none
            else some (now.offset duration)),
          s.modify c (f · ⟨now.offset duration, set, clear⟩))
      else (.error (.unknownChannel c s.count), s) := by
  rw [place, checkChannel]
  split
  · rfl
  · split <;> rfl

theorem settle_clearOverlay (s : OverlaySet) (c : Channel) (buttons : Option Buttons) :
    s.settle ((s.clearOverlay c buttons).map fun s' => (none, s')) =
      if c.index < s.count then (.ok none, s.modify c (cleared buttons))
      else (.error (.unknownChannel c s.count), s) := by
  rw [clearOverlay, checkChannel]
  split <;> rfl

/-- The answer of placing an entry, whatever becomes of the overlay. -/
theorem settle_place_fst (s : OverlaySet) (c : Channel) (set clear : Buttons) (now : Tick)
    (duration : UInt64) (f : Overlay → OverlayEntry → Overlay) :
    (s.settle (s.place c set clear now duration f)).1 =
      (OverlayOp.setOverlay c set clear now duration).answer s.count := by
  rw [settle_place, OverlayOp.answer, OverlayOp.misuse?, OverlayOp.unknown?]
  split
  · rfl
  · split <;> rfl

/-- What an operation answers depends on the number of channels only. -/
theorem perform_fst (s : OverlaySet) (op : OverlayOp) : (s.perform op).1 = op.answer s.count := by
  cases op with
  | setOverlay c set clear now duration => exact settle_place_fst s c set clear now duration _
  | setState c buttons now duration => exact settle_place_fst s c buttons .none now duration _
  | clearOverlay c buttons =>
    rw [perform, settle_clearOverlay, OverlayOp.answer, OverlayOp.misuse?, OverlayOp.unknown?]
    split <;> rfl
  | expire now => rfl
  | reset => rfl

theorem overlays_modify (s : OverlaySet) (c : Channel) (f : Overlay → Overlay) (i : Nat) :
    (s.modify c f).overlays[i]? = s.overlays[i]?.map fun o => if c.index = i then f o else o := by
  rw [modify, List.getElem?_modify]
  rfl

/-- A channel that is not configured has no overlay that could change. -/
theorem overlays_of_not_lt {c : Channel} (hc : ¬ c.index < s.count) {i : Nat}
    {f : Overlay → Overlay} :
    s.overlays[i]? = s.overlays[i]?.map fun o => if c.index = i then f o else o := by
  by_cases hi : c.index = i
  · rw [count] at hc
    rw [List.getElem?_eq_none (by omega)]
    rfl
  · simp [hi]

theorem overlays_settle_place (s : OverlaySet) (c : Channel) (set clear : Buttons) (now : Tick)
    (duration : UInt64) (f : Overlay → OverlayEntry → Overlay) (i : Nat) :
    (s.settle (s.place c set clear now duration f)).2.overlays[i]? =
      s.overlays[i]?.map fun o =>
        if c.index = i ∧ duration ≠ 0 then f o ⟨now.offset duration, set, clear⟩ else o := by
  rw [settle_place]
  split
  case isTrue hzero => simp [hzero]
  case isFalse hpos =>
    simp only [hpos, ne_eq, not_false_eq_true, and_true]
    split
    · exact overlays_modify s c _ i
    case isFalse hc => exact overlays_of_not_lt hc

/-- What an operation does to an overlay depends on this overlay only. -/
theorem overlays_perform (s : OverlaySet) (op : OverlayOp) (i : Nat) :
    (s.perform op).2.overlays[i]? = s.overlays[i]?.map (op.effect i) := by
  cases op with
  | setOverlay c set clear now duration =>
    exact overlays_settle_place s c set clear now duration _ i
  | setState c buttons now duration =>
    exact overlays_settle_place s c buttons .none now duration _ i
  | clearOverlay c buttons =>
    rw [perform, settle_clearOverlay]
    split
    · exact overlays_modify s c _ i
    case isFalse hc => exact overlays_of_not_lt hc
  | expire now => exact List.getElem?_map ..
  | reset =>
    rw [perform, reset, fresh, List.getElem?_replicate]
    by_cases hi : i < s.count
    · rw [if_pos hi, List.getElem?_eq_getElem hi]
      rfl
    · rw [if_neg hi, List.getElem?_eq_none (Nat.not_lt.mp hi)]
      rfl

@[simp] theorem count_perform (s : OverlaySet) (op : OverlayOp) :
    (s.perform op).2.count = s.count := by
  -- Each of the two lists ends where the other one does.
  apply Nat.le_antisymm
  · have hend := overlays_perform s op s.count
    rw [count, List.getElem?_eq_none (Nat.le_refl _)] at hend
    exact List.getElem?_eq_none_iff.mp hend
  · have hend := overlays_perform s op (s.perform op).2.count
    rw [count, List.getElem?_eq_none (Nat.le_refl _)] at hend
    exact List.getElem?_eq_none_iff.mp (Option.map_eq_none_iff.mp hend.symm)

/-- An operation is refused if something is wrong with it, and then the set is as it was. -/
theorem perform_eq_error {op : OverlayOp} {why : Misuse} (h : (s.perform op).1 = .error why) :
    op.misuse? s.count = some why ∧ (s.perform op).2 = s := by
  constructor
  · rw [perform_fst, OverlayOp.answer] at h
    cases hmisuse : op.misuse? s.count with
    | none =>
      rw [hmisuse] at h
      cases h
    | some _ =>
      rw [hmisuse] at h
      rw [Except.error.inj h]
  · have hsettle : ∀ r, (s.settle r).1 = .error why → (s.settle r).2 = s := by
      rintro (_ | _) hr
      · rfl
      · cases hr
    cases op with
    | setOverlay c set clear now duration => exact hsettle _ h
    | setState c buttons now duration => exact hsettle _ h
    | clearOverlay c buttons => exact hsettle _ h
    | expire now => cases h
    | reset => cases h

/-! ### Many operations -/

@[simp] theorem count_after (s : OverlaySet) (ops : List OverlayOp) :
    (s.after ops).count = s.count := by
  induction ops generalizing s with
  | nil => rfl
  | cons op rest ih => rw [after_cons, ih, count_perform]

theorem answers_eq (s : OverlaySet) (ops : List OverlayOp) :
    s.answers ops = ops.map (·.answer s.count) := by
  induction ops generalizing s with
  | nil => rfl
  | cons op rest ih => rw [answers, ih, perform_fst, count_perform, List.map_cons]

/-- What operations do to an overlay depends on this overlay only. -/
theorem overlays_after (s : OverlaySet) (ops : List OverlayOp) (i : Nat) :
    (s.after ops).overlays[i]? = s.overlays[i]?.map (OverlayOp.effects i ops) := by
  induction ops generalizing s with
  | nil => exact Option.map_id'.symm
  | cons op rest ih =>
    rw [after_cons, ih, overlays_perform, Option.map_map]
    rfl

/-- Overlays that operations lead to from neutral ones are well-formed. -/
theorem wellFormed_after (count : Nat) (ops : List OverlayOp) :
    ∀ o ∈ ((fresh count).after ops).overlays, o.WellFormed := by
  intro o ho
  obtain ⟨i, hi⟩ := List.mem_iff_getElem?.mp ho
  rw [overlays_after] at hi
  obtain ⟨before, hbefore, rfl⟩ := Option.map_eq_some_iff.mp hi
  apply OverlayOp.wellFormed_effects
  rw [List.eq_of_mem_replicate (List.mem_of_getElem? hbefore)]
  exact Overlay.wellFormed_neutral

/-- Whatever operations came before, the masks of every channel are the unions over its entries. So
a channel is neutral exactly if nothing is pending, what lapses next is the earliest of what is
pending, nothing that was due is left by expiry, and a refused operation changes nothing. -/
theorem masks_are_unions (count : Nat) (ops : List OverlayOp) :
    let s := (fresh count).after ops
    s.count = count ∧
    (∀ o ∈ s.overlays, o.WellFormed ∧ (o.isNeutral = true ↔ o.pending = 0) ∧
      ∀ t, o.nextLapse = some t ↔
        (∃ e ∈ o.entries, e.lapse = t) ∧ ∀ e ∈ o.entries, t ≤ e.lapse) ∧
    (∀ now, ∀ o ∈ (s.expire now).overlays, ∀ e ∈ o.entries, now < e.lapse) ∧
    ∀ op why, (s.perform op).1 = .error why →
      op.misuse? count = some why ∧ (s.perform op).2 = s := by
  intro s
  have hcount : s.count = count := by rw [count_after, count_fresh]
  have hwell : ∀ o ∈ s.overlays, o.WellFormed := wellFormed_after count ops
  refine ⟨hcount, ?_, ?_, ?_⟩
  · intro o ho
    exact ⟨hwell o ho, Overlay.isNeutral_iff (hwell o ho),
      fun t => Overlay.nextLapse_eq_some_iff (hwell o ho)⟩
  · intro now o ho e he
    obtain ⟨before, hbefore, rfl⟩ := List.mem_map.mp ho
    exact Overlay.lt_lapse_of_mem_expire (hwell before hbefore) he
  · intro op why hrefused
    rw [← hcount]
    exact perform_eq_error hrefused

/-- Three holds that share buttons, of which one is over, after the release of a button. -/
theorem masks_of_three_holds :
    let s := (fresh 2).after
      [.setOverlay (.ofIndex 0) ⟨3⟩ ⟨0⟩ ⟨0⟩ 5, .setOverlay (.ofIndex 0) ⟨6⟩ ⟨8⟩ ⟨0⟩ 2,
        .setOverlay (.ofIndex 0) ⟨12⟩ ⟨1⟩ ⟨1⟩ 4, .clearOverlay (.ofIndex 0) (some ⟨4⟩), .expire ⟨2⟩]
    let o : Overlay := ⟨⟨11⟩, ⟨254⟩, [⟨⟨5⟩, ⟨3⟩, ⟨0⟩⟩, ⟨⟨5⟩, ⟨8⟩, ⟨1⟩⟩]⟩
    o ∈ s.overlays ∧ o.WellFormed ∧ ¬ o.isNeutral = true ∧ o.nextLapse = some ⟨5⟩ ∧
      (o ∈ (s.expire ⟨4⟩).overlays ∧ ∀ e ∈ o.entries, ⟨4⟩ < e.lapse) ∧
      (s.perform (.setState (.ofIndex 2) ⟨1⟩ ⟨0⟩ 1)).1 =
        .error (.unknownChannel (.ofIndex 2) 2) ∧
      (s.perform (.setState (.ofIndex 2) ⟨1⟩ ⟨0⟩ 1)).2 = s := by
  intro s o
  have hmem : o ∈ s.overlays := by decide
  obtain ⟨-, hall, hlater, hrefused⟩ := masks_are_unions 2
    [.setOverlay (.ofIndex 0) ⟨3⟩ ⟨0⟩ ⟨0⟩ 5, .setOverlay (.ofIndex 0) ⟨6⟩ ⟨8⟩ ⟨0⟩ 2,
      .setOverlay (.ofIndex 0) ⟨12⟩ ⟨1⟩ ⟨1⟩ 4, .clearOverlay (.ofIndex 0) (some ⟨4⟩), .expire ⟨2⟩]
  obtain ⟨hwell, hneutral, hnext⟩ := hall o hmem
  have hanswer : (s.perform (.setState (.ofIndex 2) ⟨1⟩ ⟨0⟩ 1)).1 =
      .error (.unknownChannel (.ofIndex 2) 2) := rfl
  have hkept : o ∈ (s.expire ⟨4⟩).overlays := by decide
  refine ⟨hmem, hwell, ?_, (hnext ⟨5⟩).mpr (by decide), ⟨hkept, hlater ⟨4⟩ o hkept⟩, hanswer,
    (hrefused _ _ hanswer).2⟩
  rw [hneutral]
  decide

end OverlaySet

end CommandBridge
