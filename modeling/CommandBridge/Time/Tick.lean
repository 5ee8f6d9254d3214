import CommandBridge.Text.Numeral

/-!
# Ticks

Time inside a session is counted in ticks, one for each step of the machine. The counter has
sixty-four bits and stops at its largest value instead of wrapping, so a later tick is never
numbered below an earlier one.

Facts about ticks are stated on `Tick.toNat`, where stopping at the largest value is a minimum.
-/

namespace CommandBridge

/-- The number of a tick. -/
structure Tick where
  /-- How many steps lie before this tick. -/
  val : UInt64
  deriving DecidableEq, Repr

namespace Tick

/-- The tick's number as a natural number. -/
def toNat (t : Tick) : Nat := t.val.toNat

/-- The largest tick number. -/
def last : Nat := 0xFFFFFFFFFFFFFFFF

/-- The tick with number `n`, or the last one if there are not that many. -/
def ofNat (n : Nat) : Tick := ⟨UInt64.ofNat (min n last)⟩

/-- The first tick of a session. -/
def zero : Tick := ⟨0⟩

/-- The tick `n` ticks later, or the last one. -/
def offset (t : Tick) (n : UInt64) : Tick := ofNat (t.toNat + n.toNat)

/-- The following tick; the last one follows itself. -/
def next (t : Tick) : Tick := t.offset 1

/-- The decimal number of the tick. -/
def text (t : Tick) : String := Text.decimal t.toNat

instance : LE Tick := ⟨fun t u => t.toNat ≤ u.toNat⟩
instance : LT Tick := ⟨fun t u => t.toNat < u.toNat⟩

instance (t u : Tick) : Decidable (t ≤ u) := inferInstanceAs (Decidable (t.toNat ≤ u.toNat))
instance (t u : Tick) : Decidable (t < u) := inferInstanceAs (Decidable (t.toNat < u.toNat))

theorem le_iff {t u : Tick} : t ≤ u ↔ t.toNat ≤ u.toNat := Iff.rfl

theorem lt_iff {t u : Tick} : t < u ↔ t.toNat < u.toNat := Iff.rfl

theorem toNat_le_last (t : Tick) : t.toNat ≤ last := by
  have := t.val.toNat_lt
  simp only [toNat, last]
  omega

@[simp] theorem toNat_zero : zero.toNat = 0 := rfl

@[simp] theorem toNat_ofNat (n : Nat) : (ofNat n).toNat = min n last := by
  have h : min n last < UInt64.size := by simp only [last, UInt64.size]; omega
  simp only [ofNat, toNat, UInt64.toNat_ofNat']
  exact Nat.mod_eq_of_lt h

@[simp] theorem toNat_offset (t : Tick) (n : UInt64) :
    (t.offset n).toNat = min (t.toNat + n.toNat) last := by
  simp [offset]

@[simp] theorem toNat_next (t : Tick) : t.next.toNat = min (t.toNat + 1) last := by
  simp [next]

/-- Ticks are equal if their numbers are. -/
theorem ext_toNat {t u : Tick} (h : t.toNat = u.toNat) : t = u := by
  cases t; cases u
  exact congrArg Tick.mk (UInt64.toNat_inj.mp h)

end Tick

end CommandBridge
