import CommandBridge.Input.OverlaySet

/-!
# The masks of an overlay are those of its entries

An overlay keeps two masks beside its list of entries and changes them step by step: a hold adds
bits, a release takes some away, and when entries lapse their bits are given back unless another
entry still holds them. This module shows that nothing is ever lost or left behind by that
bookkeeping: in a **well-formed** overlay (`Overlay.WellFormed`) the masks are the unions over the
entries, and every operation keeps overlays well-formed.

With that, an operation is described by what it does to the entries alone:

* `hold` and `replace` add their entry if it has bits (`entries_hold_perm`, `entries_replace`);
* `release` takes buttons out of every entry and drops the entries left empty
  (`entries_release`);
* `expire` keeps the entries that lapse later (`entries_expire`).

Equations between sets of buttons are proved one button at a time, with `Buttons.test`.
-/

namespace CommandBridge

namespace Buttons

/-! ### Sets of buttons, one button at a time -/

/-- Whether the button with number `i` is in the set. -/
def test (b : Buttons) (i : Fin 8) : Bool := b.bits.toBitVec[i]

/-- Sets are equal if they have the same buttons. -/
theorem ext_test {a b : Buttons} (h : ∀ i, a.test i = b.test i) : a = b := by
  cases a
  cases b
  congr 1
  apply UInt8.toBitVec_inj.mp
  apply BitVec.eq_of_getElem_eq
  intro i hi
  exact h ⟨i, hi⟩

@[simp] theorem test_none (i : Fin 8) : none.test i = false := by simp [test, none]

@[simp] theorem test_all (i : Fin 8) : all.test i = true := by
  revert i
  decide

@[simp] theorem test_union (a b : Buttons) (i : Fin 8) :
    (a.union b).test i = (a.test i || b.test i) := by
  simp [test, union]

@[simp] theorem test_inter (a b : Buttons) (i : Fin 8) :
    (a.inter b).test i = (a.test i && b.test i) := by
  simp [test, inter]

@[simp] theorem test_compl (a : Buttons) (i : Fin 8) : a.compl.test i = !a.test i := by
  simp [test, compl]

@[simp] theorem test_diff (a b : Buttons) (i : Fin 8) :
    (a.diff b).test i = (a.test i && !b.test i) := by
  simp [diff]

@[simp] theorem test_unionAll (l : List Buttons) (i : Fin 8) :
    (unionAll l).test i = l.any (·.test i) := by
  induction l with
  | nil => simp
  | cons b rest ih => simp [ih]

theorem isEmpty_iff {b : Buttons} : b.isEmpty = true ↔ b = none := by
  simp [isEmpty]

theorem diff_none (b : Buttons) : b.diff none = b := ext_test (by simp)

theorem diff_union (a b c : Buttons) : a.diff (b.union c) = (a.diff b).diff c :=
  ext_test (by simp [Bool.and_assoc])

theorem unionAll_map_diff (l : List Buttons) (b : Buttons) :
    unionAll (l.map (·.diff b)) = (unionAll l).diff b := by
  induction l with
  | nil => exact ext_test (by simp)
  | cons a rest ih =>
    rw [List.map_cons, unionAll_cons, unionAll_cons, ih]
    exact ext_test (by simp [Bool.and_or_distrib_right])

theorem unionAll_concat (l : List Buttons) (b : Buttons) :
    unionAll (l ++ [b]) = (unionAll l).union b := by
  induction l with
  | nil => simp
  | cons a rest ih => rw [List.cons_append, unionAll_cons, unionAll_cons, ih, union_assoc]

/-- The union does not depend on the order of the sets. -/
theorem unionAll_perm {l l' : List Buttons} (h : l.Perm l') : unionAll l = unionAll l' := by
  apply ext_test
  intro i
  rw [test_unionAll, test_unionAll]
  exact h.any_eq

end Buttons

open Buttons (unionAll)

namespace OverlayEntry

theorem isEmpty_iff {e : OverlayEntry} :
    e.isEmpty = true ↔ e.set = Buttons.none ∧ e.clear = Buttons.none := by
  simp [isEmpty, Buttons.isEmpty_iff]

/-- The entry without some of the buttons it holds down. -/
def without (e : OverlayEntry) (buttons : Buttons) : OverlayEntry :=
  { e with set := e.set.diff buttons }

@[simp] theorem without_none (e : OverlayEntry) : e.without Buttons.none = e := by
  simp [without, Buttons.diff_none]

theorem isEmpty_without {e : OverlayEntry} (h : e.isEmpty = true) (buttons : Buttons) :
    (e.without buttons).isEmpty = true := by
  obtain ⟨hset, hclear⟩ := isEmpty_iff.mp h
  refine isEmpty_iff.mpr ⟨?_, hclear⟩
  rw [without, hset]
  exact Buttons.ext_test (by simp)

/-- Taking buttons out before or after leaving out empty entries is the same. -/
theorem filter_map_without (l : List OverlayEntry) (buttons : Buttons) :
    ((l.filter (!·.isEmpty)).map (·.without buttons)).filter (!·.isEmpty) =
      (l.map (·.without buttons)).filter (!·.isEmpty) := by
  induction l with
  | nil => rfl
  | cons e rest ih =>
    cases he : e.isEmpty with
    | true => simp [he, ih, isEmpty_without he]
    | false => simp [he, ih, List.filter_cons]

end OverlayEntry

namespace Overlay

/-! ### Well-formed overlays -/

/-- The entries come in the order in which they lapse, each of them holds a button, and the masks
are what the entries hold together. -/
structure WellFormed (o : Overlay) : Prop where
  /-- No entry lapses before the one in front of it. -/
  sorted : o.entries.Pairwise fun e f => e.lapse ≤ f.lapse
  /-- Empty entries are not kept. -/
  nonempty : ∀ e ∈ o.entries, e.isEmpty = false
  /-- A button is forced down exactly if an entry holds it down. -/
  forced_eq : o.forced = unionAll (o.entries.map (·.set))
  /-- A button is let through exactly if no entry holds it up. -/
  allowed_eq : o.allowed = (unionAll (o.entries.map (·.clear))).compl

theorem wellFormed_neutral : neutral.WellFormed where
  sorted := .nil
  nonempty := by simp [neutral]
  forced_eq := rfl
  allowed_eq := Buttons.ext_test (by simp [neutral])

theorem insertEntry_perm (e : OverlayEntry) (l : List OverlayEntry) :
    (insertEntry e l).Perm (e :: l) := by
  induction l with
  | nil => exact .refl _
  | cons x rest ih =>
    rw [insertEntry]
    split
    · exact (ih.cons x).trans (.swap e x rest)
    · exact .refl _

theorem sorted_insertEntry (e : OverlayEntry) {l : List OverlayEntry}
    (h : l.Pairwise fun e f => e.lapse ≤ f.lapse) :
    (insertEntry e l).Pairwise fun e f => e.lapse ≤ f.lapse := by
  induction l with
  | nil => exact List.pairwise_singleton _ _
  | cons x rest ih =>
    obtain ⟨hx, hrest⟩ := List.pairwise_cons.mp h
    rw [insertEntry]
    split
    case isTrue hle =>
      -- The new entry goes somewhere behind `x`, which lapses no later than any of them.
      refine List.pairwise_cons.mpr ⟨?_, ih hrest⟩
      intro f hf
      rcases List.mem_cons.mp ((insertEntry_perm e rest).mem_iff.mp hf) with rfl | hf
      · exact hle
      · exact hx f hf
    case isFalse hnot =>
      have hle : e.lapse ≤ x.lapse := by
        rw [Tick.le_iff] at hnot ⊢
        omega
      refine List.pairwise_cons.mpr ⟨?_, h⟩
      intro f hf
      rcases List.mem_cons.mp hf with rfl | hf
      · exact hle
      · exact Nat.le_trans hle (hx f hf)

/-- Scheduling adds the entry, unless it is empty. -/
theorem entries_schedule_perm (o : Overlay) (e : OverlayEntry) :
    (o.schedule e).entries.Perm ([e].filter (!·.isEmpty) ++ o.entries) := by
  rw [schedule]
  cases h : e.isEmpty with
  | true => simp [h]
  | false => simpa [h] using insertEntry_perm e o.entries

/-- Scheduling the entry whose bits were just put into the masks makes the masks fit again. -/
theorem wellFormed_schedule {o : Overlay} {e : OverlayEntry}
    (hsorted : o.entries.Pairwise fun e f => e.lapse ≤ f.lapse)
    (hnonempty : ∀ e ∈ o.entries, e.isEmpty = false)
    (hforced : o.forced = (unionAll (o.entries.map (·.set))).union e.set)
    (hallowed : o.allowed = ((unionAll (o.entries.map (·.clear))).union e.clear).compl) :
    (o.schedule e).WellFormed := by
  cases hempty : e.isEmpty with
  | true =>
    obtain ⟨hset, hclear⟩ := OverlayEntry.isEmpty_iff.mp hempty
    rw [schedule, if_pos hempty]
    exact ⟨hsorted, hnonempty, by simpa [hset] using hforced, by simpa [hclear] using hallowed⟩
  | false =>
    have hperm := insertEntry_perm e o.entries
    rw [schedule, if_neg (by simp [hempty])]
    refine ⟨sorted_insertEntry e hsorted, ?_, ?_, ?_⟩
    · intro f hf
      rcases List.mem_cons.mp (hperm.mem_iff.mp hf) with rfl | hf
      · exact hempty
      · exact hnonempty f hf
    · rw [Buttons.unionAll_perm (hperm.map _)]
      simpa [Buttons.union_comm] using hforced
    · rw [Buttons.unionAll_perm (hperm.map _)]
      simpa [Buttons.union_comm] using hallowed

/-! ### Holding and replacing -/

theorem wellFormed_hold {o : Overlay} (h : o.WellFormed) (e : OverlayEntry) :
    (o.hold e).WellFormed := by
  rw [hold]
  apply wellFormed_schedule
  · exact h.sorted
  · exact h.nonempty
  · rw [h.forced_eq]
  · rw [h.allowed_eq]
    exact Buttons.ext_test (by simp)

theorem entries_hold_perm (o : Overlay) (e : OverlayEntry) :
    (o.hold e).entries.Perm ([e].filter (!·.isEmpty) ++ o.entries) :=
  entries_schedule_perm _ e

/-- Only an entry that holds nothing up may replace what was there: `replace` lets everything
else through. -/
theorem wellFormed_replace {e : OverlayEntry} (h : e.clear = Buttons.none) :
    (replace e).WellFormed := by
  rw [replace]
  apply wellFormed_schedule
  · exact .nil
  · simp [neutral]
  · simp [neutral]
  · simpa [neutral, h] using wellFormed_neutral.allowed_eq

theorem entries_replace (e : OverlayEntry) : (replace e).entries = [e].filter (!·.isEmpty) := by
  rw [replace, schedule]
  cases h : e.isEmpty <;> simp [h, neutral, insertEntry]

/-! ### Releasing -/

theorem entries_release (o : Overlay) (buttons : Buttons) :
    (o.release buttons).entries = (o.entries.map (·.without buttons)).filter (!·.isEmpty) := by
  rw [release]
  split
  case isTrue h => exact (List.isEmpty_iff.mp h).symm
  case isFalse => rfl

/-- Leaving out empty entries leaves the buttons held down as they are. -/
theorem unionAll_set_filter (l : List OverlayEntry) :
    unionAll ((l.filter (!·.isEmpty)).map (·.set)) = unionAll (l.map (·.set)) := by
  induction l with
  | nil => rfl
  | cons e rest ih =>
    cases he : e.isEmpty with
    | true => simp [he, ih, (OverlayEntry.isEmpty_iff.mp he).1]
    | false => simp [he, ih]

/-- Leaving out empty entries leaves the buttons held up as they are. -/
theorem unionAll_clear_filter (l : List OverlayEntry) :
    unionAll ((l.filter (!·.isEmpty)).map (·.clear)) = unionAll (l.map (·.clear)) := by
  induction l with
  | nil => rfl
  | cons e rest ih =>
    cases he : e.isEmpty with
    | true => simp [he, ih, (OverlayEntry.isEmpty_iff.mp he).2]
    | false => simp [he, ih]

theorem unionAll_set_without (l : List OverlayEntry) (buttons : Buttons) :
    unionAll ((l.map (·.without buttons)).map (·.set)) =
      (unionAll (l.map (·.set))).diff buttons := by
  rw [← Buttons.unionAll_map_diff, List.map_map, List.map_map]
  rfl

theorem wellFormed_release {o : Overlay} (h : o.WellFormed) (buttons : Buttons) :
    (o.release buttons).WellFormed := by
  rw [release]
  split
  · exact wellFormed_neutral
  · refine ⟨?_, ?_, ?_, ?_⟩
    · apply List.Pairwise.filter
      exact List.pairwise_map.mpr h.sorted
    · intro e he
      simpa using (List.mem_filter.mp he).2
    · show _ = unionAll (((o.entries.map (·.without buttons)).filter (!·.isEmpty)).map (·.set))
      rw [unionAll_set_filter, unionAll_set_without, h.forced_eq]
    · show _ = (unionAll (((o.entries.map (·.without buttons)).filter
        (!·.isEmpty)).map (·.clear))).compl
      rw [unionAll_clear_filter, List.map_map, h.allowed_eq]
      rfl

/-! ### Lapsing -/

/-- With entries that come in the order of their lapses, those that are due stand in front. -/
theorem dropWhile_due {l : List OverlayEntry} (h : l.Pairwise fun e f => e.lapse ≤ f.lapse)
    (now : Tick) : l.dropWhile (·.lapse ≤ now) = l.filter (now < ·.lapse) := by
  induction l with
  | nil => rfl
  | cons e rest ih =>
    obtain ⟨he, hrest⟩ := List.pairwise_cons.mp h
    by_cases hdue : e.lapse ≤ now
    · have hnot : ¬ now < e.lapse := by
        rw [Tick.lt_iff]
        rw [Tick.le_iff] at hdue
        omega
      simp [hdue, hnot, ih hrest]
    · -- The first entry that is not due ends the search, and all behind it lapse even later.
      have hlater : ∀ f ∈ e :: rest, now < f.lapse := by
        intro f hf
        rw [Tick.lt_iff]
        rw [Tick.le_iff] at hdue
        rcases List.mem_cons.mp hf with rfl | hf
        · omega
        · have := Tick.le_iff.mp (he f hf)
          omega
      rw [List.filter_eq_self.mpr (by simpa using hlater)]
      simp [hdue]

/-- Giving back a list of entries takes away what they hold down, except what is still held. -/
theorem test_forced_giveBack (stillSet stillClear : Buttons) (due : List OverlayEntry)
    (o : Overlay) (i : Fin 8) :
    (due.foldl (giveBack stillSet stillClear) o).forced.test i =
      (o.forced.test i && !(due.any (·.set.test i) && !stillSet.test i)) := by
  induction due generalizing o with
  | nil => simp
  | cons e rest ih =>
    rw [List.foldl_cons, ih]
    simp only [giveBack, Buttons.test_diff, List.any_cons]
    cases o.forced.test i <;> cases e.set.test i <;> cases stillSet.test i <;> simp

/-- Giving back a list of entries lets through what they hold up, except what is still held. -/
theorem test_allowed_giveBack (stillSet stillClear : Buttons) (due : List OverlayEntry)
    (o : Overlay) (i : Fin 8) :
    (due.foldl (giveBack stillSet stillClear) o).allowed.test i =
      (o.allowed.test i || (due.any (·.clear.test i) && !stillClear.test i)) := by
  induction due generalizing o with
  | nil => simp
  | cons e rest ih =>
    rw [List.foldl_cons, ih]
    simp only [giveBack, Buttons.test_diff, Buttons.test_union, List.any_cons]
    cases o.allowed.test i <;> cases e.clear.test i <;> cases stillClear.test i <;> simp

theorem entries_giveBack (stillSet stillClear : Buttons) (due : List OverlayEntry)
    (o : Overlay) : (due.foldl (giveBack stillSet stillClear) o).entries = o.entries := by
  induction due generalizing o with
  | nil => rfl
  | cons e rest ih => rw [List.foldl_cons, ih, giveBack]

theorem entries_expire {o : Overlay} (h : o.WellFormed) (now : Tick) :
    (o.expire now).entries = o.entries.filter (now < ·.lapse) := by
  rw [← dropWhile_due h.sorted, expire]
  dsimp only
  split
  case isTrue hdue =>
    -- Nothing is due, so dropping what is due drops nothing.
    have hnone := List.isEmpty_iff.mp hdue
    have hall := List.takeWhile_append_dropWhile (p := fun e : OverlayEntry => e.lapse ≤ now)
      (l := o.entries)
    rw [hnone, List.nil_append] at hall
    exact hall.symm
  case isFalse =>
    split
    case isTrue hrest => exact (List.isEmpty_iff.mp hrest).symm
    case isFalse => rw [entries_giveBack]

/-- The masks after giving back all that is due: what remains held is exactly what is still
held, because the masks were those of the due entries and of the others together. -/
theorem wellFormed_giveBack {o : Overlay} {due rest : List OverlayEntry}
    (hsorted : rest.Pairwise fun e f => e.lapse ≤ f.lapse)
    (hnonempty : ∀ e ∈ rest, e.isEmpty = false)
    (hforced : o.forced = unionAll ((due ++ rest).map (·.set)))
    (hallowed : o.allowed = (unionAll ((due ++ rest).map (·.clear))).compl) :
    (due.foldl (giveBack (unionAll (rest.map (·.set))) (unionAll (rest.map (·.clear))))
      { o with entries := rest }).WellFormed := by
  have hentries := entries_giveBack (unionAll (rest.map (·.set)))
    (unionAll (rest.map (·.clear))) due { o with entries := rest }
  refine ⟨hentries ▸ hsorted, hentries ▸ hnonempty, ?_, ?_⟩
  · rw [hentries]
    apply Buttons.ext_test
    intro i
    rw [test_forced_giveBack, hforced]
    -- For one button this is `(due || rest) && !(due && !rest) = rest`.
    simp only [Buttons.test_unionAll, List.any_map, List.any_append, Function.comp_def]
    cases due.any (·.set.test i) <;> cases rest.any (·.set.test i) <;> rfl
  · rw [hentries]
    apply Buttons.ext_test
    intro i
    rw [test_allowed_giveBack, hallowed]
    simp only [Buttons.test_compl, Buttons.test_unionAll, List.any_map, List.any_append,
      Function.comp_def]
    cases due.any (·.clear.test i) <;> cases rest.any (·.clear.test i) <;> rfl

theorem wellFormed_expire {o : Overlay} (h : o.WellFormed) (now : Tick) :
    (o.expire now).WellFormed := by
  have hsplit := List.takeWhile_append_dropWhile (p := fun e : OverlayEntry => e.lapse ≤ now)
    (l := o.entries)
  rw [expire]
  dsimp only
  split
  · exact h
  · split
    · exact wellFormed_neutral
    · apply wellFormed_giveBack
      · rw [dropWhile_due h.sorted]
        exact h.sorted.filter _
      · intro e he
        exact h.nonempty e ((List.dropWhile_sublist _).subset he)
      · rw [hsplit, h.forced_eq]
      · rw [hsplit, h.allowed_eq]

end Overlay

namespace OverlaySet

/-! ### Overlays of all channels -/

theorem channel?_modify (s : OverlaySet) (c d : Channel) (f : Overlay → Overlay) :
    (s.modify c f).channel? d = if c = d then (s.channel? d).map f else s.channel? d := by
  have hindex : c.index = d.index ↔ c = d := by
    constructor
    · intro h
      rw [← Channel.ofIndex_index c, h, Channel.ofIndex_index]
    · exact congrArg _
  simp only [modify, channel?, List.getElem?_modify, hindex]
  split <;> simp

/-- What it takes to place an entry, and what comes of it. -/
theorem place_eq_ok {s s' : OverlaySet} {c : Channel} {set clear : Buttons} {now : Tick}
    {duration : UInt64} {f : Overlay → OverlayEntry → Overlay} {lapse : Option Tick} :
    s.place c set clear now duration f = .ok (lapse, s') ↔
      duration ≠ 0 ∧ c.index < s.count ∧
        (if (OverlayEntry.mk (now.offset duration) set clear).isEmpty then none
          else some (now.offset duration)) = lapse ∧
        s.modify c (f · ⟨now.offset duration, set, clear⟩) = s' := by
  rw [place, checkChannel]
  by_cases hduration : duration = 0
  · simp [hduration, throw, throwThe, MonadExceptOf.throw, bind, Except.bind]
  · by_cases hc : c.index < s.count
    · simp [hduration, hc, bind, Except.bind, pure, Except.pure]
    · simp [hduration, hc, bind, Except.bind]

/-- What clearing leaves of an overlay. -/
def cleared (buttons : Option Buttons) (o : Overlay) : Overlay :=
  match buttons with
  | some b => o.release b
  | none => Overlay.neutral

theorem clearOverlay_eq_ok {s s' : OverlaySet} {c : Channel} {buttons : Option Buttons} :
    s.clearOverlay c buttons = .ok s' ↔ c.index < s.count ∧ s.modify c (cleared buttons) = s' := by
  rw [clearOverlay, checkChannel]
  by_cases hc : c.index < s.count
  · rw [if_pos hc]
    exact ⟨fun h => ⟨hc, Except.ok.inj h⟩, fun h => congrArg Except.ok h.2⟩
  · simp [hc, bind, Except.bind]

end OverlaySet

end CommandBridge
