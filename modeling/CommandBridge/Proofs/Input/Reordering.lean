import CommandBridge.Proofs.Input.Operations

/-!
# Holds in any order

Holds on top of each other add up, so their order should not matter. It does matter for the state:
entries that lapse at the same tick stay in the order in which they came. It does not matter for
anybody who looks at a channel, neither at once nor later.

`Overlay.Alike` is the relation behind this: two well-formed overlays with the same entries, in any
order. Related overlays show the same (`Overlay.Alike.shows_eq`), stay related under every operation
(`Overlay.Alike.effect`), and two holds that change places lead to related overlays
(`Overlay.alike_hold_hold`). A permutation is made of such changes (`Overlay.alike_of_perm`).
-/

namespace CommandBridge

/-- What there is to see of a channel's overlay. -/
structure Shown where
  forced : Buttons
  allowed : Buttons
  pending : Nat
  nextLapse : Option Tick
  deriving DecidableEq, Repr

namespace Overlay

variable {o p q : Overlay}

def shows (o : Overlay) : Shown := ⟨o.forced, o.allowed, o.pending, o.nextLapse⟩

/-- Well-formed overlays whose entries differ in nothing but their order. -/
structure Alike (o p : Overlay) : Prop where
  left : o.WellFormed
  right : p.WellFormed
  entries_perm : o.entries.Perm p.entries

theorem Alike.refl (h : o.WellFormed) : o.Alike o := ⟨h, h, .refl _⟩

theorem Alike.trans (h : o.Alike p) (h' : p.Alike q) : o.Alike q :=
  ⟨h.left, h'.right, h.entries_perm.trans h'.entries_perm⟩

theorem Alike.nextLapse_eq (h : o.Alike p) : o.nextLapse = p.nextLapse := by
  apply Option.ext
  intro t
  rw [nextLapse_eq_some_iff h.left, nextLapse_eq_some_iff h.right]
  simp only [h.entries_perm.mem_iff]

theorem Alike.shows_eq (h : o.Alike p) : o.shows = p.shows := by
  have hforced : o.forced = p.forced := by
    rw [h.left.forced_eq, h.right.forced_eq, Buttons.unionAll_perm (h.entries_perm.map _)]
  have hallowed : o.allowed = p.allowed := by
    rw [h.left.allowed_eq, h.right.allowed_eq, Buttons.unionAll_perm (h.entries_perm.map _)]
  rw [shows, shows, hforced, hallowed, pending, pending, h.entries_perm.length_eq, h.nextLapse_eq]

theorem Alike.hold (h : o.Alike p) (e : OverlayEntry) : (o.hold e).Alike (p.hold e) where
  left := wellFormed_hold h.left e
  right := wellFormed_hold h.right e
  entries_perm := (entries_hold_perm o e).trans
    ((h.entries_perm.append_left _).trans (entries_hold_perm p e).symm)

theorem Alike.release (h : o.Alike p) (buttons : Buttons) :
    (o.release buttons).Alike (p.release buttons) where
  left := wellFormed_release h.left buttons
  right := wellFormed_release h.right buttons
  entries_perm := by
    rw [entries_release, entries_release]
    exact (h.entries_perm.map _).filter _

theorem Alike.expire (h : o.Alike p) (now : Tick) : (o.expire now).Alike (p.expire now) where
  left := wellFormed_expire h.left now
  right := wellFormed_expire h.right now
  entries_perm := by
    rw [entries_expire h.left, entries_expire h.right]
    exact h.entries_perm.filter _

/-- Whatever is done to both, overlays with the same entries keep the same entries. -/
theorem Alike.effect (h : o.Alike p) (i : Nat) (op : OverlayOp) :
    (op.effect i o).Alike (op.effect i p) := by
  cases op with
  | setOverlay c set clear now duration =>
    rw [OverlayOp.effect, OverlayOp.effect]
    split
    · exact h.hold _
    · exact h
  | setState c buttons now duration =>
    rw [OverlayOp.effect, OverlayOp.effect]
    split
    · exact .refl (wellFormed_replace rfl)
    · exact h
  | clearOverlay c buttons =>
    rw [OverlayOp.effect, OverlayOp.effect]
    split
    · cases buttons with
      | none => exact .refl wellFormed_neutral
      | some buttons => exact h.release buttons
    · exact h
  | expire now => exact h.expire now
  | reset => exact .refl wellFormed_neutral

/-- The last two holds may change places. -/
theorem alike_hold_hold (h : o.WellFormed) (e f : OverlayEntry) :
    ((o.hold e).hold f).Alike ((o.hold f).hold e) where
  left := wellFormed_hold (wellFormed_hold h e) f
  right := wellFormed_hold (wellFormed_hold h f) e
  entries_perm := by
    have hef := (entries_hold_perm (o.hold e) f).trans ((entries_hold_perm o e).append_left _)
    have hfe := (entries_hold_perm (o.hold f) e).trans ((entries_hold_perm o f).append_left _)
    rw [← List.append_assoc] at hef hfe
    exact hef.trans ((List.perm_append_comm.append_right _).trans hfe.symm)

end Overlay

/-- The arguments of a hold on top of others. -/
structure HoldCall where
  channel : Channel
  set : Buttons
  clear : Buttons
  now : Tick
  duration : UInt64
  deriving DecidableEq, Repr

/-- The hold as an operation. -/
def HoldCall.op (call : HoldCall) : OverlayOp :=
  .setOverlay call.channel call.set call.clear call.now call.duration

namespace Overlay

variable {o p : Overlay}

theorem Alike.effects (h : o.Alike p) (i : Nat) (ops : List OverlayOp) :
    (OverlayOp.effects i ops o).Alike (OverlayOp.effects i ops p) := by
  induction ops generalizing o p with
  | nil => exact h
  | cons op rest ih => exact ih (h.effect i op)

/-- Two holds after each other, on whatever channels, may change places. -/
theorem alike_swap (h : o.WellFormed) (i : Nat) (x y : HoldCall) :
    (y.op.effect i (x.op.effect i o)).Alike (x.op.effect i (y.op.effect i o)) := by
  simp only [HoldCall.op, OverlayOp.effect]
  split
  · split
    · exact alike_hold_hold h _ _
    · exact .refl (wellFormed_hold h _)
  · split
    · exact .refl (wellFormed_hold h _)
    · exact .refl h

/-- Holds in another order lead to the same entries. -/
theorem alike_of_perm {calls calls' : List HoldCall} (hperm : calls.Perm calls')
    (h : o.WellFormed) (i : Nat) :
    (OverlayOp.effects i (calls.map HoldCall.op) o).Alike
      (OverlayOp.effects i (calls'.map HoldCall.op) o) := by
  induction hperm generalizing o with
  | nil => exact .refl h
  | cons x _ ih => exact ih (OverlayOp.wellFormed_effect h i x.op)
  | swap x y rest => exact (alike_swap h i y x).effects i (rest.map HoldCall.op)
  | trans _ _ ih ih' => exact (ih h).trans (ih' h)

end Overlay

namespace OverlaySet

/-- Holds on top of each other, on any channels and with any ticks, may be made in any order: each
of them answers the same, and what is seen of the channels and answered is the same, now and after
whatever is done later. -/
theorem holds_in_any_order (count : Nat) (ops : List OverlayOp) {calls calls' : List HoldCall}
    (hperm : calls.Perm calls') :
    let s := (fresh count).after ops
    let left := s.after (calls.map HoldCall.op)
    let right := s.after (calls'.map HoldCall.op)
    (∃ answer : HoldCall → OverlayAnswer,
      s.answers (calls.map HoldCall.op) = calls.map answer ∧
      s.answers (calls'.map HoldCall.op) = calls'.map answer) ∧
    ∀ later : List OverlayOp, left.answers later = right.answers later ∧
      ∀ c, ((left.after later).channel? c).map Overlay.shows =
        ((right.after later).channel? c).map Overlay.shows := by
  intro s left right
  refine ⟨⟨fun call => call.op.answer s.count, ?_, ?_⟩, fun later => ⟨?_, fun c => ?_⟩⟩
  · rw [answers_eq, List.map_map]
    rfl
  · rw [answers_eq, List.map_map]
    rfl
  · have hcount : left.count = right.count := (count_after s _).trans (count_after s _).symm
    rw [answers_eq, answers_eq, hcount]
  · have hleft : left.channel? c = (s.channel? c).map _ := overlays_after s _ c.index
    have hright : right.channel? c = (s.channel? c).map _ := overlays_after s _ c.index
    have hafter : ∀ t : OverlaySet, (t.after later).channel? c = (t.channel? c).map _ :=
      fun t => overlays_after t later c.index
    rw [hafter, hafter, hleft, hright]
    cases ho : s.channel? c with
    | none => rfl
    | some o =>
      have hwell : o.WellFormed := wellFormed_after count ops o (List.mem_of_getElem? ho)
      have halike := Overlay.alike_of_perm hperm hwell c.index
      exact congrArg some (halike.effects c.index later).shows_eq

/-- Two holds that lapse together and one on another channel, made in two orders. The states differ,
but not in what is seen, even if one of the buttons is released and time goes on. -/
theorem three_holds_in_two_orders :
    let x : HoldCall := ⟨.ofIndex 0, ⟨1⟩, ⟨2⟩, ⟨0⟩, 3⟩
    let y : HoldCall := ⟨.ofIndex 0, ⟨3⟩, ⟨0⟩, ⟨1⟩, 2⟩
    let z : HoldCall := ⟨.ofIndex 1, ⟨4⟩, ⟨0⟩, ⟨0⟩, 1⟩
    let s := (fresh 2).after [.setState (.ofIndex 0) ⟨8⟩ ⟨0⟩ 9]
    let left := s.after [x.op, y.op, z.op]
    let right := s.after [z.op, y.op, x.op]
    [x, y, z].Perm [z, y, x] ∧ left ≠ right ∧
      ∀ c, ((left.after [.clearOverlay (.ofIndex 0) (some ⟨1⟩), .expire ⟨2⟩]).channel? c).map
          Overlay.shows =
        ((right.after [.clearOverlay (.ofIndex 0) (some ⟨1⟩), .expire ⟨2⟩]).channel? c).map
          Overlay.shows := by
  intro x y z s left right
  have hperm : [x, y, z].Perm [z, y, x] := by decide
  have hsame := holds_in_any_order 2 [.setState (.ofIndex 0) ⟨8⟩ ⟨0⟩ 9] hperm
  exact ⟨hperm, by decide, (hsame.2 [.clearOverlay (.ofIndex 0) (some ⟨1⟩), .expire ⟨2⟩]).2⟩

end OverlaySet

end CommandBridge
