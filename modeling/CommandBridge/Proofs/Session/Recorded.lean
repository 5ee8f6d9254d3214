import CommandBridge.Proofs.Session.Simulation

/-!
# Machines with a record of writes

`Recorded σ` is a machine of type `σ` together with the addresses of all writes issued to it, those
included that panic. It answers as the machine inside does (`Recorded.alike`), so a bridge around it
does what a bridge around the machine inside would do, and the record shows what no answer tells.
-/

namespace CommandBridge

open CommandBridge.Action

/-- A machine with the addresses of the writes issued to it, oldest first. -/
structure Recorded (σ : Type) where
  machine : σ
  writes : List Address

namespace Recorded

variable {σ α : Type}

/-- An action of the machine inside. -/
def inside (x : Action σ α) : Action (Recorded σ) α :=
  Action.onPart (·.machine) (fun m r => { r with machine := m }) x

instance [Machine σ] : Machine (Recorded σ) where
  isLoaded := inside Machine.isLoaded
  hasFeature f := inside (Machine.hasFeature f)
  rawInput c := inside (Machine.rawInput c)
  step frame := inside (Machine.step frame)
  peek a := inside (Machine.peek a)
  poke a value := fun r =>
    (inside (Machine.poke a value)).run { r with writes := r.writes ++ [a] }
  setInspection active r := { r with machine := Machine.setInspection active r.machine }
  saveState slot := inside (Machine.saveState slot)
  loadState slot := inside (Machine.loadState slot)

/-- The machine inside, without the record. -/
def Contains (r : Recorded σ) (m : σ) : Prop := r.machine = m

theorem alike_inside (x : Action σ α) : Action.Alike Contains (inside x) x := by
  rintro r _ rfl
  exact ⟨rfl, rfl⟩

/-- Recording changes no answer. -/
theorem alike [Machine σ] : Machine.Alike (Contains : Recorded σ → σ → Prop) where
  isLoaded := alike_inside _
  hasFeature _ := alike_inside _
  rawInput _ := alike_inside _
  step _ := alike_inside _
  peek _ := alike_inside _
  poke a value := by
    rintro r _ rfl
    exact ⟨rfl, rfl⟩
  setInspection := by
    rintro active r _ rfl
    rfl
  saveState _ := alike_inside _
  loadState _ := alike_inside _

end Recorded

end CommandBridge
