/-!
# Double-precision numbers

A number of the IEEE 754 format *binary64*, kept as its bit pattern. Everything the bridge does
with such numbers is exact integer arithmetic on the pattern, so each fact about a rounded result
is a fact about natural numbers.

Design points:

* The **magnitude** of a number is its pattern without the sign bit. Among finite numbers the
  order of magnitudes is the order of absolute values, and the magnitude after the largest finite
  one is infinity (`infinityBits`).
* Every finite absolute value is a whole multiple of the smallest positive one, `2 ^ -1074`.
  `scaled` gives that multiple, so no fractions are needed anywhere.
* If the pattern's exponent field is `e`, the multiple is `significand <<< shift` with
  `shift = e - 1`, and the pattern itself is `shift * fractionCount + significand`. The subnormal
  numbers are the case `shift = 0` with a small significand, not an exception.
-/

namespace CommandBridge

/-- A number of the format binary64, given by its bits. -/
structure Binary64 where
  /-- Sign, eleven bits of exponent and fifty-two bits of fraction. -/
  bits : UInt64
  deriving DecidableEq, Repr

namespace Binary64

/-- The number of fractions: how many patterns share an exponent. -/
def fractionCount : Nat := 0x10000000000000

/-- The value of the sign bit. -/
def signBit : Nat := 0x8000000000000000

/-- The magnitude of infinity; smaller magnitudes are finite, larger ones are no numbers. -/
def infinityBits : Nat := 2047 * fractionCount

/-- Whether the sign bit is set. -/
def isNegative (x : Binary64) : Bool := signBit ≤ x.bits.toNat

/-- The bit pattern without the sign bit. -/
def magnitude (x : Binary64) : Nat := x.bits.toNat % signBit

/-- Whether the pattern stands for no number. -/
def isNaN (x : Binary64) : Bool := infinityBits < x.magnitude

/-- Whether the pattern stands for one of the two infinities. -/
def isInfinite (x : Binary64) : Bool := x.magnitude = infinityBits

/-- Whether the pattern stands for a number. -/
def isFinite (x : Binary64) : Bool := x.magnitude < infinityBits

/-- Whether the number is one of the two zeros. -/
def isZero (x : Binary64) : Bool := x.magnitude = 0

/-- The number with the given sign and magnitude. -/
def ofMagnitude (negative : Bool) (m : Nat) : Binary64 :=
  ⟨UInt64.ofNat (if negative then signBit + m else m)⟩

/-- The pattern written for a result that is no number. -/
def nan : Binary64 := ofMagnitude false (infinityBits + fractionCount / 2)

/-- The number with the sign turned. -/
def negate (x : Binary64) : Binary64 := ofMagnitude (!x.isNegative) x.magnitude

/-- How far the significand of a finite magnitude is shifted to the left. -/
def shift (m : Nat) : Nat := m / fractionCount - 1

/-- The significand of a finite magnitude: what is left of the pattern beside the shift. -/
def significand (m : Nat) : Nat := m - shift m * fractionCount

/-- The absolute value of a finite magnitude in units of `2 ^ -1074`. -/
def scaled (m : Nat) : Nat := significand m <<< shift m

/-- The unit of `scaled`: this many units make one. -/
def unitsPerOne : Nat := 1 <<< 1074

@[simp] theorem scaled_zero : scaled 0 = 0 := by simp [scaled, significand]

/-- A magnitude is put together from its shift and its significand. -/
theorem shift_mul_add_significand (m : Nat) :
    shift m * fractionCount + significand m = m := by
  have h : shift m * fractionCount ≤ m :=
    Nat.le_trans (Nat.mul_le_mul_right _ (Nat.sub_le _ _)) (Nat.div_mul_le_self m fractionCount)
  unfold significand
  omega

/-- A significand has at most fifty-three bits. -/
theorem significand_lt (m : Nat) : significand m < 2 * fractionCount := by
  have hpos : 0 < fractionCount := by decide
  have h := Nat.lt_div_mul_add (a := m) hpos
  unfold significand shift
  rcases Nat.eq_zero_or_pos (m / fractionCount) with h0 | h0
  · simp only [h0] at h ⊢
    omega
  · obtain ⟨k, hk⟩ : ∃ k, m / fractionCount = k + 1 := ⟨m / fractionCount - 1, by omega⟩
    simp only [hk, Nat.add_sub_cancel, Nat.add_mul] at h ⊢
    omega

end Binary64

end CommandBridge
