import CommandBridge.Proofs.Bridge.Opening
import CommandBridge.Proofs.Bridge.Outcomes
import CommandBridge.Proofs.Memory.Store

/-!
# Commands about memory and slots are sequential

A bridge runs commands in batches, over many ticks, between steps that may fail, and among commands
of all other kinds. The commands about memory and slots notice nothing of this: their outcomes are
those of a store that is given the same operations one after the other
(`Reachable.store_sequential`).

The invariant along a run is `Session.Serves`. It survives a command by the two lemmas about
requests of `Memory.Store`, one for those that are operations of the store and one for the others.
Two runs are then compared through their stores: what each of them has run is a prefix of what it
has accepted, and a prefix of the operations has a prefix of the outcomes.
-/

namespace CommandBridge

open CommandBridge.Action CommandBridge.Store

/-- The operations of a store that a list of commands asks for. -/
def storeOps (commands : List Command) : List StoreOp :=
  commands.filterMap fun c => c.request.storeOp?

/-- The operations of a store among executed commands, with their outcomes. -/
def storeLog (history : List Execution) : List (StoreOp × Outcome Reply) :=
  history.filterMap fun x => x.command.request.storeOp?.map fun op => (op, x.outcome)

theorem storeOps_append (commands more : List Command) :
    storeOps (commands ++ more) = storeOps commands ++ storeOps more :=
  List.filterMap_append

/-- A change from outside that leaves the store and the script of a machine alone, such as new
input. -/
def Scripted.SparesStore (change : Scripted → Scripted) : Prop :=
  ∀ m, (change m).store = m.store ∧ (change m).loaded = m.loaded ∧
    (change m).battery = m.battery ∧ (change m).faults = m.faults

/-! ### One run -/

namespace Session

/-- The operations of the store in the history have had the outcomes that the store says, and the
session holds the store that they leave. -/
structure Serves (rules : Rules) (start : Store) (history : List Execution)
    (s : Session Scripted) : Prop where
  log_eq : storeLog history =
    (rules.serveAll (storeOps (history.map (·.command))) start).1
  holds : s.Holds rules (rules.serveAll (storeOps (history.map (·.command))) start).2

variable {rules : Rules} {start : Store} {history : List Execution} {s : Session Scripted}

theorem Serves.congr (h : s.Serves rules start history) {s' : Session Scripted}
    (hholds : ∀ t, s.Holds rules t → s'.Holds rules t) : s'.Serves rules start history :=
  ⟨h.log_eq, hholds _ h.holds⟩

theorem Serves.handle (h : s.Serves rules start history) (command : Command) :
    ((Session.handle command.request).run s).2.Serves rules start
      (history ++ [⟨command, outcomeOf ((Session.handle command.request).run s).1⟩]) := by
  cases hop : command.request.storeOp? with
  | none =>
    have hkept := keeps_holds hop s h.holds
    constructor
    · simpa [storeLog, storeOps, hop] using h.log_eq
    · simpa [storeOps, hop] using hkept
  | some op =>
    obtain ⟨houtcome, hafter⟩ := h.holds.serve hop
    have hops : ∀ x : Execution, x.command = command →
        storeOps ((history ++ [x]).map (·.command)) =
          storeOps (history.map (·.command)) ++ [op] := by
      rintro x rfl
      simp [storeOps, hop]
    constructor
    · rw [hops _ rfl, Rules.serveAll_append, ← h.log_eq]
      simp [storeLog, hop, houtcome, Rules.serveAll]
    · rw [hops _ rfl, Rules.serveAll_append]
      exact hafter

theorem serves_invariant : SessionInvariant Scripted.SparesStore (Serves rules start) where
  handle _ _ command h := h.handle command
  nextFrame _ _ h := h.congr fun _ => Holds.nextFrame
  step _ _ frame h := h.congr fun _ ht => ht.step frame
  outside _ s change h hchange := by
    obtain ⟨hstore, hloaded, hbattery, hfaults⟩ := hchange s.machine
    exact h.congr fun _ ht => ⟨ht.regions_eq, ht.machine.congr hstore hloaded hbattery hfaults⟩

end Session

/-- Two lists that begin the same list agree where both have an entry. -/
theorem eq_of_prefix {α : Type} {l l' whole : List α} (h : l <+: whole) (h' : l' <+: whole)
    {i : Nat} {a b : α} (ha : l[i]? = some a) (hb : l'[i]? = some b) : a = b := by
  obtain ⟨hi, rfl⟩ := List.getElem?_eq_some_iff.mp ha
  obtain ⟨hi', rfl⟩ := List.getElem?_eq_some_iff.mp hb
  rw [h.getElem hi, h'.getElem hi']

namespace Reachable

variable {machine : Scripted} {settings : Settings} {b₀ : Bridge Scripted} {s : Stage Scripted}

theorem serves (hstart : Bridge.start machine settings = .ok b₀)
    (h : Reachable Scripted.SparesStore b₀ s) :
    s.bridge.session.Serves (machine.rules b₀.session.regions) machine.store s.ledger.executed := by
  obtain ⟨regions, -, -, rfl⟩ := Bridge.start_eq_ok.mp hstart
  exact h.session_invariant Session.serves_invariant ⟨rfl, rfl, rfl, rfl, rfl, rfl⟩

/-- Commands are run in the order of their numbers. -/
theorem executed_ids (hstart : Bridge.start machine settings = .ok b₀)
    (h : Reachable Scripted.SparesStore b₀ s) :
    s.ledger.executed.map (·.command.id) = List.range s.ledger.executed.length := by
  have hbalanced := h.balanced hstart
  have hprefix : s.ledger.executed.map (·.command.id) <+:
      List.range s.bridge.intake.queue.tickets.size := by
    rw [← hbalanced.ids_eq, hbalanced.accepted_eq, List.append_assoc, List.map_append,
      List.map_map]
    exact List.prefix_append _ _
  have hlength := hprefix.length_le
  rw [List.length_map, List.length_range] at hlength
  rw [List.prefix_iff_eq_take.mp hprefix, List.take_range, List.length_map, Nat.min_eq_left hlength]

/-! ### Two runs -/

/-- Whatever a bridge has run yet, it is the beginning of what the store would answer to all
operations that were accepted. -/
theorem storeLog_prefix (hstart : Bridge.start machine settings = .ok b₀)
    (h : Reachable Scripted.SparesStore b₀ s) :
    storeLog s.ledger.executed <+: ((machine.rules b₀.session.regions).serveAll
      (storeOps s.ledger.accepted) machine.store).1 := by
  rw [(h.serves hstart).log_eq]
  refine Rules.serveAll_prefix _ ?_ _
  rw [(h.balanced hstart).accepted_eq, List.append_assoc, storeOps_append]
  exact List.prefix_append _ _

/-- The commands about memory and slots that a bridge has run were run in the order of their
numbers, and each has delivered its outcome. The outcomes are those of a store that is given the
same operations one after the other, and the machine holds what this store holds in the end. So two
bridges around the same machine with the same regions, which have accepted the same operations,
agree on the outcomes that both have. -/
theorem store_sequential (hstart : Bridge.start machine settings = .ok b₀) :
    (∀ s, Reachable Scripted.SparesStore b₀ s →
      let reference := (machine.rules b₀.session.regions).serveAll
        (storeOps (s.ledger.executed.map (·.command))) machine.store
      s.ledger.executed.map (·.command.id) = List.range s.ledger.executed.length ∧
      (∀ x ∈ s.ledger.executed,
        s.bridge.intake.queue.HasTicket x.command.id (Ticket.Delivered x.outcome)) ∧
      storeLog s.ledger.executed = reference.1 ∧
      s.bridge.session.machine.store = reference.2) ∧
    (∀ (settings' : Settings) (c₀ : Bridge Scripted) (s t : Stage Scripted),
      Bridge.start machine settings' = .ok c₀ →
      settings'.regions = settings.regions →
      Reachable Scripted.SparesStore b₀ s → Reachable Scripted.SparesStore c₀ t →
      storeOps s.ledger.accepted = storeOps t.ledger.accepted →
      ∀ (i : Nat) x y, (storeLog s.ledger.executed)[i]? = some x →
        (storeLog t.ledger.executed)[i]? = some y → x = y) := by
  refine ⟨?_, ?_⟩
  · intro s hs
    have hserves := hs.serves hstart
    exact ⟨hs.executed_ids hstart, (hs.balanced hstart).executed, hserves.log_eq,
      hserves.holds.machine.store_eq⟩
  · intro settings' c₀ s t hstart' hregions hs ht haccepted i x y hx hy
    have hleft := hs.storeLog_prefix hstart
    have hright := ht.storeLog_prefix hstart'
    rw [Bridge.regions_eq_of_start hstart hstart' hregions, ← haccepted] at hright
    exact eq_of_prefix hleft hright hx hy

/-- A snapshot is saved and restored in two bridges, one of which pauses in between. -/
theorem loads_agree_across_pause :
    let machine := Scripted.fresh true false Faults.none
    let plain := (Bridge.tick (((Bridge.sized machine 4 2).submit (.saveState 3)).2.submit
      (.loadState 3)).2).2
    let paused := (Bridge.tick ((((Bridge.sized machine 8 3).submit (.saveState 3)).2.submit
      .pause).2.submit (.loadState 3)).2).2
    plain.intake.queue.HasTicket 1 (Ticket.Delivered (.ok (.slot 3))) ∧
      paused.intake.queue.HasTicket 2 (Ticket.Delivered (.ok (.slot 3))) := by
  intro machine plain paused
  have hplain : Bridge.Run Scripted.SparesStore (Bridge.sized machine 4 2) _ plain :=
    ((Bridge.Run.opened.submit (.saveState 3)).submit (.loadState 3)).tick
  have hpaused : Bridge.Run Scripted.SparesStore (Bridge.sized machine 8 3) _ paused :=
    (((Bridge.Run.opened.submit (.saveState 3)).submit .pause).submit (.loadState 3)).tick
  have hstart : Bridge.start machine (.sized 4 2) = .ok (Bridge.sized machine 4 2) :=
    Bridge.start_sized machine (by decide) (by decide)
  have hstart' : Bridge.start machine (.sized 8 3) = .ok (Bridge.sized machine 8 3) :=
    Bridge.start_sized machine (by decide) (by decide)
  obtain ⟨hrun, hagree⟩ := store_sequential hstart
  obtain ⟨-, hfirst, -⟩ := hrun _ hplain.reachable
  obtain ⟨-, hsecond, -⟩ := (store_sequential hstart').1 _ hpaused.reachable
  have hsame := hagree _ _ _ _ hstart' rfl hplain.reachable hpaused.reachable rfl 1
    (.load 3, .ok (.slot 3)) _ rfl rfl
  refine ⟨hfirst ⟨⟨1, .loadState 3, .zero⟩, .ok (.slot 3)⟩ (.tail _ (.head _)), ?_⟩
  rw [(Prod.mk.inj hsame).2]
  exact hsecond ⟨⟨2, .loadState 3, .zero⟩, _⟩ (.tail _ (.tail _ (.head _)))

end Reachable

end CommandBridge
