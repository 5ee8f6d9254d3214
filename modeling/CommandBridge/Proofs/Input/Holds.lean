import CommandBridge.Command.Request
import CommandBridge.Proofs.Input.Masks

/-!
# What an overlay shows, read off the history of commands

Whoever submits commands knows of overlays only what the replies say: that a hold was applied at
one tick and expires at another. This module defines what a channel should look like from nothing
but the history of executed commands and their outcomes (`liveHolds`, `Holding.observedUnder`),
and relates it to the overlay that the session keeps (`Tracked`).

* A successful `setOverlay` with bits, or `setState` with buttons, starts a hold.
* A later `setState`, or `clearOverlay` without buttons, ends every hold before it.
* A later `clearOverlay` with buttons takes these out of what the holds before it hold down.
* A hold is live from the tick at which it was applied until the tick at which it expires.

The definition looks at the whole history each time; the overlay knows only two masks and a
list of entries. `Tracked` is the invariant between the two: the overlay is well-formed, and its
entries are the holds that are left and have not expired, in some order. There is one lemma for
each thing that can happen to a channel.
-/

namespace CommandBridge

open Buttons (unionAll)

/-- A command that was run, with its outcome. -/
structure Execution where
  command : Command
  outcome : Outcome Reply

/-- A hold on a channel, as the command and the reply to it describe it. -/
structure Holding where
  /-- The first tick at which it is seen. -/
  appliedAt : Tick
  /-- The first tick at which it is no longer seen. -/
  expiresAt : Tick
  /-- Buttons held down. -/
  set : Buttons
  /-- Buttons held up. -/
  clear : Buttons

namespace Holding

/-- The hold without some of the buttons it holds down. -/
def without (h : Holding) (buttons : Buttons) : Holding := { h with set := h.set.diff buttons }

/-- The overlay entry that a hold should have. -/
def entry (h : Holding) : OverlayEntry := ⟨h.expiresAt, h.set, h.clear⟩

/-- The hold that a command starts, if there is anything in it. -/
def start (now : Tick) (duration : UInt64) (set clear : Buttons) : Option Holding :=
  if (OverlayEntry.mk (now.offset duration) set clear).isEmpty then none
  else some ⟨now, now.offset duration, set, clear⟩

/-- A hold of at least one tick outlasts the current tick, unless that is the last one. -/
theorem of_start {now : Tick} {duration : UInt64} {set clear : Buttons} {h : Holding}
    (hduration : duration ≠ 0) (hstart : start now duration set clear = some h) :
    h.appliedAt ≤ now ∧ (now.toNat < Tick.last → now < h.expiresAt) ∧
      h.entry.isEmpty = false := by
  rw [start] at hstart
  split at hstart
  case isTrue => cases hstart
  case isFalse hempty =>
    cases hstart
    refine ⟨Nat.le_refl _, ?_, Bool.not_eq_true _ ▸ hempty⟩
    intro hnow
    have hpos : duration.toNat ≠ 0 := fun h => hduration (UInt64.toNat_inj.mp h)
    rw [Tick.lt_iff, Tick.toNat_offset]
    omega

theorem entries_start (now : Tick) (duration : UInt64) (set clear : Buttons) :
    (start now duration set clear).toList.map entry =
      [OverlayEntry.mk (now.offset duration) set clear].filter (!·.isEmpty) := by
  rw [start]
  split <;> simp_all [entry]

end Holding

namespace Execution

/-- The hold that an executed command has started on a channel. -/
def holding? (c : Channel) (x : Execution) : Option Holding :=
  match x.command.request, x.outcome with
  | .setOverlay d set clear _, .ok (.overlay _ appliedAt (some expiresAt)) =>
    if d = c then some ⟨appliedAt, expiresAt, set, clear⟩ else none
  | .setState d buttons _, .ok (.overlay _ appliedAt (some expiresAt)) =>
    if d = c then some ⟨appliedAt, expiresAt, buttons, Buttons.none⟩ else none
  | _, _ => none

/-- Whether an executed command has ended all earlier holds on a channel. -/
def endsHolds (c : Channel) (x : Execution) : Bool :=
  match x.command.request, x.outcome with
  | .setState d _ _, .ok _ => d = c
  | .clearOverlay d none, .ok _ => d = c
  | _, _ => false

/-- The buttons that an executed command has taken out of the earlier holds on a channel. -/
def released (c : Channel) (x : Execution) : Buttons :=
  match x.command.request, x.outcome with
  | .clearOverlay d (some buttons), .ok _ => if d = c then buttons else Buttons.none
  | _, _ => Buttons.none

end Execution

/-- The holds on a channel that a history leaves, oldest first. -/
def holdsLeft (c : Channel) : List Execution → List Holding
  | [] => []
  | x :: later =>
    match x.holding? c with
    | some h =>
      if later.any (·.endsHolds c) then holdsLeft c later
      else h.without (unionAll (later.map (·.released c))) :: holdsLeft c later
    | none => holdsLeft c later

/-- What one more executed command does to the holds that are left. -/
theorem holdsLeft_concat (c : Channel) (history : List Execution) (x : Execution) :
    holdsLeft c (history ++ [x]) =
      (if x.endsHolds c then [] else (holdsLeft c history).map (·.without (x.released c))) ++
        (x.holding? c).toList := by
  induction history with
  | nil =>
    cases h : x.holding? c with
    | none => simp [holdsLeft, h]
    | some h' => simp [holdsLeft, h, Holding.without, Buttons.diff_none]
  | cons y later ih =>
    -- For the hold of `y`, the new command is the last one of those that come later.
    rw [List.cons_append, holdsLeft, holdsLeft, ih]
    cases y.holding? c with
    | none => rfl
    | some h =>
      cases hends : x.endsHolds c with
      | true => simp [hends]
      | false =>
        cases hlater : later.any (·.endsHolds c) with
        | true => simp [hends, hlater]
        | false =>
          simp [hends, hlater, Buttons.unionAll_concat, Holding.without, Buttons.diff_union]

/-! ### The invariant between overlay and history -/

/-- An executed command that neither starts, ends nor changes holds on a channel. -/
structure Execution.Irrelevant (c : Channel) (x : Execution) : Prop where
  holding_eq : x.holding? c = none
  endsHolds_eq : x.endsHolds c = false
  released_eq : x.released c = Buttons.none

/-- Taking buttons out of holds does not change when they expire. -/
theorem Holding.filter_without (l : List Holding) (buttons : Buttons) (now : Tick) :
    ((l.map (·.without buttons)).filter (now < ·.expiresAt)).map Holding.entry =
      ((l.filter (now < ·.expiresAt)).map Holding.entry).map (·.without buttons) := by
  rw [List.filter_map, List.map_map, List.map_map]
  rfl

/-- The entries that the overlay of a channel should have at a tick. -/
def pendingEntries (c : Channel) (now : Tick) (history : List Execution) : List OverlayEntry :=
  (((holdsLeft c history).filter (now < ·.expiresAt)).map Holding.entry).filter (!·.isEmpty)

/-- An overlay at tick `now` is what the history makes of the channel. At the last tick, which
follows itself, nothing can expire later, so nothing is said about the entries there. -/
structure Tracked (c : Channel) (history : List Execution) (now : Tick) (o : Overlay) :
    Prop where
  /-- The masks fit the entries. -/
  wellFormed : o.WellFormed
  /-- No hold starts in the future. -/
  begun : ∀ h ∈ holdsLeft c history, h.appliedAt ≤ now
  /-- The entries are those that should be there. -/
  entries_perm : now.toNat < Tick.last → o.entries.Perm (pendingEntries c now history)

namespace Tracked

variable {c : Channel} {history : List Execution} {now : Tick} {o : Overlay}

theorem neutral (c : Channel) (now : Tick) : Tracked c [] now Overlay.neutral where
  wellFormed := Overlay.wellFormed_neutral
  begun := by simp [holdsLeft]
  entries_perm _ := .refl _

/-- One more executed command, and the overlay it leaves. What has to be known about the overlay
is how its entries come from those before: the hold that was started is added, and the others are
gone or have lost the released buttons. -/
theorem concat (h : Tracked c history now o) {x : Execution} {o' : Overlay}
    (hwellFormed : o'.WellFormed)
    (hstarted : ∀ g, x.holding? c = some g → g.appliedAt ≤ now ∧
      (now.toNat < Tick.last → now < g.expiresAt) ∧ g.entry.isEmpty = false)
    (hentries : o'.entries.Perm
      ((if x.endsHolds c then []
          else (o.entries.map (·.without (x.released c))).filter (!·.isEmpty)) ++
        (x.holding? c).toList.map Holding.entry)) :
    Tracked c (history ++ [x]) now o' where
  wellFormed := hwellFormed
  begun := by
    rw [holdsLeft_concat]
    intro g hg
    rcases List.mem_append.mp hg with hg | hg
    · split at hg
      · simp at hg
      · obtain ⟨g', hg', rfl⟩ := List.mem_map.mp hg
        exact h.begun g' hg'
    · exact (hstarted g (by simpa using hg)).1
  entries_perm hnow := by
    refine hentries.trans ?_
    rw [pendingEntries, holdsLeft_concat, List.filter_append, List.map_append,
      List.filter_append]
    refine List.Perm.append ?_ ?_
    · split
      · exact .refl _
      · -- Releasing buttons does not change when an entry lapses, but may leave it empty.
        have hold := ((h.entries_perm hnow).map (·.without (x.released c))).filter (!·.isEmpty)
        rw [pendingEntries, OverlayEntry.filter_map_without] at hold
        rwa [Holding.filter_without]
    · cases hg : x.holding? c with
      | none => exact .refl _
      | some g =>
        obtain ⟨-, hlater, hnonempty⟩ := hstarted g hg
        simp [hlater hnow, hnonempty]

/-- Entries that lose no buttons stay as they are. -/
theorem filter_without_none (h : Tracked c history now o) :
    (o.entries.map (·.without Buttons.none)).filter (!·.isEmpty) = o.entries := by
  simp only [OverlayEntry.without_none, List.map_id']
  exact List.filter_eq_self.mpr (by simpa using h.wellFormed.nonempty)

/-- A command that has nothing to do with the channel. -/
theorem irrelevant (h : Tracked c history now o) {x : Execution} (hx : x.Irrelevant c) :
    Tracked c (history ++ [x]) now o := by
  refine h.concat h.wellFormed (by simp [hx.holding_eq]) ?_
  rw [hx.holding_eq, hx.endsHolds_eq, hx.released_eq, h.filter_without_none]
  simp

/-- A hold on top of the others. -/
theorem hold (h : Tracked c history now o) {x : Execution} {set clear : Buttons}
    {hold : Option Hold} {duration : UInt64} {lapse : Option Tick} (hduration : duration ≠ 0)
    (hrequest : x.command.request = .setOverlay c set clear hold)
    (houtcome : x.outcome = .ok (.overlay c now lapse))
    (hlapse : (if (OverlayEntry.mk (now.offset duration) set clear).isEmpty then none
      else some (now.offset duration)) = lapse) :
    Tracked c (history ++ [x]) now (o.hold ⟨now.offset duration, set, clear⟩) := by
  have hholding : x.holding? c = Holding.start now duration set clear := by
    cases hempty : (OverlayEntry.mk (now.offset duration) set clear).isEmpty <;>
      simp [Execution.holding?, hrequest, houtcome, ← hlapse, Holding.start, hempty]
  have hends : x.endsHolds c = false := by rw [Execution.endsHolds, hrequest]
  have hreleased : x.released c = Buttons.none := by rw [Execution.released, hrequest]
  refine h.concat (Overlay.wellFormed_hold h.wellFormed _) ?_ ?_
  · rw [hholding]
    exact fun g hg => Holding.of_start hduration hg
  · rw [hholding, Holding.entries_start, hends, hreleased, if_neg (by simp),
      h.filter_without_none]
    exact (Overlay.entries_hold_perm o _).trans List.perm_append_comm

/-- A hold instead of the others. -/
theorem replace (h : Tracked c history now o) {x : Execution} {buttons : Buttons}
    {hold : Option Hold} {duration : UInt64} {lapse : Option Tick} (hduration : duration ≠ 0)
    (hrequest : x.command.request = .setState c buttons hold)
    (houtcome : x.outcome = .ok (.overlay c now lapse))
    (hlapse : (if (OverlayEntry.mk (now.offset duration) buttons Buttons.none).isEmpty then none
      else some (now.offset duration)) = lapse) :
    Tracked c (history ++ [x]) now
      (Overlay.replace ⟨now.offset duration, buttons, Buttons.none⟩) := by
  have hholding : x.holding? c = Holding.start now duration buttons Buttons.none := by
    cases hempty : (OverlayEntry.mk (now.offset duration) buttons Buttons.none).isEmpty <;>
      simp [Execution.holding?, hrequest, houtcome, ← hlapse, Holding.start, hempty]
  have hends : x.endsHolds c = true := by
    rw [Execution.endsHolds, hrequest, houtcome]
    exact decide_eq_true rfl
  refine h.concat (Overlay.wellFormed_replace rfl) ?_ ?_
  · rw [hholding]
    exact fun g hg => Holding.of_start hduration hg
  · rw [hholding, Holding.entries_start, hends, if_pos rfl, Overlay.entries_replace]
    exact .refl _

/-- The release of some buttons, or of all holds. -/
theorem cleared (h : Tracked c history now o) {x : Execution} {buttons : Option Buttons}
    {reply : Reply} (hrequest : x.command.request = .clearOverlay c buttons)
    (houtcome : x.outcome = .ok reply) :
    Tracked c (history ++ [x]) now (OverlaySet.cleared buttons o) := by
  have hholding : x.holding? c = none := by rw [Execution.holding?, hrequest]
  cases buttons with
  | none =>
    have hends : x.endsHolds c = true := by
      rw [Execution.endsHolds, hrequest, houtcome]
      exact decide_eq_true rfl
    refine h.concat Overlay.wellFormed_neutral (by simp [hholding]) ?_
    rw [hholding, hends]
    exact .refl _
  | some buttons =>
    have hends : x.endsHolds c = false := by rw [Execution.endsHolds, hrequest]
    have hreleased : x.released c = buttons := by
      rw [Execution.released, hrequest, houtcome]
      exact if_pos rfl
    refine h.concat (Overlay.wellFormed_release h.wellFormed buttons) (by simp [hholding]) ?_
    rw [hholding, hends, hreleased, OverlaySet.cleared, Overlay.entries_release]
    simp

/-- The next tick comes, and what has expired by then goes. -/
theorem expire (h : Tracked c history now o) :
    Tracked c history now.next (o.expire now.next) where
  wellFormed := Overlay.wellFormed_expire h.wellFormed now.next
  begun := by
    intro g hg
    have hle := Tick.le_iff.mp (h.begun g hg)
    have hlast := g.appliedAt.toNat_le_last
    rw [Tick.le_iff, Tick.toNat_next]
    omega
  entries_perm hnext := by
    -- The last tick follows itself, so before it the invariant speaks of the current tick, too.
    rw [Tick.toNat_next] at hnext
    have hperm := (h.entries_perm (by omega)).filter (now.next < ·.lapse)
    rw [Overlay.entries_expire h.wellFormed]
    refine hperm.trans (List.Perm.of_eq ?_)
    rw [pendingEntries, pendingEntries, List.filter_filter, List.filter_map, List.filter_map,
      List.filter_filter, List.filter_filter]
    congr 1
    apply List.filter_congr
    intro g _
    have hmono : now.next < g.expiresAt → now < g.expiresAt := by
      rw [Tick.lt_iff, Tick.lt_iff, Tick.toNat_next]
      omega
    by_cases hg : now.next < g.expiresAt
    · simp [Holding.entry, hg, hmono hg]
    · simp [Holding.entry, hg]

end Tracked

end CommandBridge
