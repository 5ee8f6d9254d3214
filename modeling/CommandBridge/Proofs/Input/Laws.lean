import CommandBridge.Proofs.Input.Operations

/-!
# Laws of expiry and release

Expiring twice is expiring once at the later tick, releasing twice is releasing the union of the
buttons, and a release and an expiry may change places. So it does no harm if ticks are skipped,
repeated or processed out of order.

A well-formed overlay is nothing more than its entries (`Overlay.WellFormed.ext`), and both
operations only take something away from the entries: expiry keeps those that lapse later, and a
release takes buttons out and leaves out what is empty then. So the laws are laws of `List.filter`
and `List.map`, and the three ways in which an expiry may go do not show in them. For the sets of
overlays that operations lead to they are put together in
`OverlaySet.expiry_and_clearing_compose`.
-/

namespace CommandBridge

namespace Tick

instance : Max Tick := maxOfLe

@[simp] theorem toNat_max (a b : Tick) : (max a b).toNat = max a.toNat b.toNat := by
  have hmax : max a b = if a ≤ b then b else a := rfl
  rw [hmax, Nat.max_def, apply_ite toNat]
  rfl

theorem max_comm (a b : Tick) : max a b = max b a :=
  ext_toNat (by rw [toNat_max, toNat_max, Nat.max_comm])

theorem max_lt_iff {a b t : Tick} : max a b < t ↔ a < t ∧ b < t := by
  rw [lt_iff, lt_iff, lt_iff, toNat_max, Nat.max_lt]

end Tick

namespace OverlayEntry

theorem without_without (e : OverlayEntry) (x y : Buttons) :
    (e.without x).without y = e.without (x.union y) := by
  rw [without, without, without, Buttons.diff_union]

end OverlayEntry

namespace Overlay

variable {o p : Overlay}

/-- The masks of a well-formed overlay follow from its entries. -/
theorem WellFormed.ext (ho : o.WellFormed) (hp : p.WellFormed) (h : o.entries = p.entries) :
    o = p := by
  have hforced : o.forced = p.forced := by rw [ho.forced_eq, hp.forced_eq, h]
  have hallowed : o.allowed = p.allowed := by rw [ho.allowed_eq, hp.allowed_eq, h]
  cases o
  cases p
  cases hforced
  cases hallowed
  cases h
  rfl

theorem expire_expire (h : o.WellFormed) (a b : Tick) :
    (o.expire a).expire b = o.expire (max a b) := by
  have ha := wellFormed_expire h a
  refine (wellFormed_expire ha b).ext (wellFormed_expire h _) ?_
  rw [entries_expire ha, entries_expire h, entries_expire h, List.filter_filter]
  apply List.filter_congr
  intro e _
  simp [Tick.max_lt_iff, Bool.and_comm]

theorem release_release (h : o.WellFormed) (x y : Buttons) :
    (o.release x).release y = o.release (x.union y) := by
  refine (wellFormed_release (wellFormed_release h x) y).ext (wellFormed_release h _) ?_
  rw [entries_release, entries_release, entries_release, OverlayEntry.filter_map_without,
    List.map_map]
  simp only [Function.comp_def, OverlayEntry.without_without]

theorem expire_release (h : o.WellFormed) (x : Buttons) (a : Tick) :
    (o.release x).expire a = (o.expire a).release x := by
  have hx := wellFormed_release h x
  have ha := wellFormed_expire h a
  refine (wellFormed_expire hx a).ext (wellFormed_release ha x) ?_
  -- Taking buttons out of an entry does not change when it lapses.
  have hlapse : (o.entries.filter (a < ·.lapse)).map (·.without x) =
      (o.entries.map (·.without x)).filter (a < ·.lapse) := by
    rw [List.filter_map]
    rfl
  rw [entries_expire hx, entries_release, entries_release, entries_expire h, hlapse,
    List.filter_filter, List.filter_filter]
  exact List.filter_congr fun e _ => Bool.and_comm _ _

/-- Entries out of order hide what is due behind them, until a release takes them away. -/
example :
    let o : Overlay := ⟨⟨3⟩, .all, [⟨⟨3⟩, ⟨1⟩, .none⟩, ⟨⟨1⟩, ⟨2⟩, .none⟩]⟩
    (o.release ⟨1⟩).expire ⟨2⟩ ≠ (o.expire ⟨2⟩).release ⟨1⟩ := by
  decide

end Overlay

namespace OverlaySet

variable {s t : OverlaySet}

theorem ext_overlays (h : ∀ i : Nat, s.overlays[i]? = t.overlays[i]?) : s = t := by
  cases s
  cases t
  exact congrArg mk (List.ext_getElem? h)

/-- Operations that do the same to well-formed overlays one by one do the same to all. -/
theorem after_congr (hs : ∀ o ∈ s.overlays, o.WellFormed) {ops ops' : List OverlayOp}
    (h : ∀ i o, o.WellFormed → OverlayOp.effects i ops o = OverlayOp.effects i ops' o) :
    s.after ops = s.after ops' := by
  refine ext_overlays fun i => ?_
  rw [overlays_after, overlays_after]
  exact Option.map_congr fun o ho => h i o (hs o (List.mem_of_getElem? ho))

/-- Expiry at two ticks is expiry at the later one, whichever comes first. The releases of two sets
of buttons are the release of their union. A release and an expiry may change places. -/
theorem expiry_and_clearing_compose (count : Nat) (ops : List OverlayOp) (c : Channel)
    (a b : Tick) (x y : Buttons) :
    let s := (fresh count).after ops
    s.after [.expire a, .expire b] = s.after [.expire (max a b)] ∧
    s.after [.expire b, .expire a] = s.after [.expire (max a b)] ∧
    s.after [.clearOverlay c (some x), .clearOverlay c (some y)] =
      s.after [.clearOverlay c (some (x.union y))] ∧
    s.after [.clearOverlay c (some x), .expire a] =
      s.after [.expire a, .clearOverlay c (some x)] := by
  intro s
  have hs : ∀ o ∈ s.overlays, o.WellFormed := wellFormed_after count ops
  refine ⟨?_, ?_, ?_, ?_⟩
  · exact after_congr hs fun _ o ho => Overlay.expire_expire ho a b
  · rw [Tick.max_comm a b]
    exact after_congr hs fun _ o ho => Overlay.expire_expire ho b a
  · refine after_congr hs fun i o ho => ?_
    simp only [OverlayOp.effects, List.foldl_cons, List.foldl_nil, OverlayOp.effect]
    split
    · exact Overlay.release_release ho x y
    · rfl
  · refine after_congr hs fun i o ho => ?_
    simp only [OverlayOp.effects, List.foldl_cons, List.foldl_nil, OverlayOp.effect]
    split
    · exact Overlay.expire_release ho x a
    · rfl

end OverlaySet

end CommandBridge
