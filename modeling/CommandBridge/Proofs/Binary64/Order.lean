import CommandBridge.Proofs.Binary64.Whole
import Mathlib.Order.Monotone.Basic

/-!
# Rounding and order

The order of magnitudes is the order of their values (`scaled_strictMono`), and rounding keeps the
order of quotients (`nearest_mono`). As rounding does not change the value of a magnitude
(`nearest_scaled`), a quotient on one side of such a value stays there (`nearest_le`, `le_nearest`).
Among these values are the whole numbers of up to fifty-three bits and their halves (`scaled_ofNat`,
`half_le_scaled_nearest`). How far a quotient moves is said by `scaled_nearest_le`: half a unit of
the shift that was chosen.

`nearest` is a minimum, a sum and a rounded quotient. What is used of the quotient is that it has at
most fifty-three bits, or is the next power of two (`roundedPart_le`), and at least as many unless
there is no shift (`le_roundedPart`).
-/

namespace CommandBridge

/-! ### Rounded quotients -/

theorem roundDivUp_mono {num num' den : Nat} (h : num ≤ num') :
    roundDivUp num den ≤ roundDivUp num' den :=
  Nat.div_le_div_right (by omega)

/-- A remainder of less than a half is dropped, one of more than a half is rounded up, and a half is
treated in either way. -/
theorem roundDivEven_cases (num den : Nat) :
    (roundDivEven num den = num / den ∧ 2 * (num % den) ≤ den) ∨
      (roundDivEven num den = num / den + 1 ∧ den ≤ 2 * (num % den)) := by
  simp only [roundDivEven]
  split
  case isTrue hlow => exact .inl ⟨rfl, Nat.le_of_lt hlow⟩
  case isFalse hlow =>
    split
    case isTrue hhigh => exact .inr ⟨rfl, Nat.le_of_lt hhigh⟩
    case isFalse hhigh =>
      obtain heven | hodd := Nat.mod_two_eq_zero_or_one (num / den)
      · exact .inl ⟨by rw [heven, Nat.add_zero], Nat.le_of_not_lt hhigh⟩
      · exact .inr ⟨by rw [hodd], Nat.le_of_not_lt hlow⟩

/-- A rounded quotient is off by half a step at most. -/
theorem roundDivEven_mul_le (num den : Nat) :
    2 * (roundDivEven num den * den) ≤ 2 * num + den := by
  have hsplit := Nat.div_add_mod' num den
  have hnext : (num / den + 1) * den = num / den * den + den := Nat.succ_mul _ _
  obtain ⟨hround, hrest⟩ | ⟨hround, hrest⟩ := roundDivEven_cases num den <;> rw [hround] <;> omega

theorem le_roundDivEven (num den : Nat) : num / den ≤ roundDivEven num den := by
  have hcases := roundDivEven_cases num den
  omega

theorem roundDivEven_le (num den : Nat) : roundDivEven num den ≤ num / den + 1 := by
  have hcases := roundDivEven_cases num den
  omega

theorem roundDivEven_mono {num num' den : Nat} (h : num ≤ num') :
    roundDivEven num den ≤ roundDivEven num' den := by
  rcases Nat.lt_or_eq_of_le (Nat.div_le_div_right (c := den) h) with hlt | heq
  · exact Nat.le_trans (roundDivEven_le num den) (Nat.le_trans hlt (le_roundDivEven num' den))
  · have hsplit := Nat.div_add_mod' num den
    have hsplit' := Nat.div_add_mod' num' den
    rw [heq] at hsplit
    obtain ⟨hround, -⟩ | ⟨hround, hrest⟩ := roundDivEven_cases num den
    · rw [hround, heq]
      exact le_roundDivEven num' den
    · obtain ⟨-, hrest'⟩ | ⟨hround', -⟩ := roundDivEven_cases num' den
      · -- Both remainders are the same half.
        have hsame : num = num' := by omega
        rw [hsame]
      · rw [hround, hround', heq]

namespace Binary64

/-! ### Rounding keeps the order -/

/-- The order of magnitudes is the order of their values. -/
theorem scaled_strictMono : StrictMono scaled :=
  strictMono_nat_of_lt_succ fun m => by
    rw [scaled_add_one]
    exact Nat.lt_add_of_pos_right (shiftLeft_pos Nat.one_pos _)

/-- The shift that rounding chooses. -/
def roundingShift (num den : Nat) : Nat := (num / den).log2 - 52

/-- The rounded quotient under that shift. -/
def roundedPart (num den : Nat) : Nat := roundDivEven num (den <<< roundingShift num den)

theorem nearest_eq (num den : Nat) :
    nearest num den =
      min (roundingShift num den * fractionCount + roundedPart num den) infinityBits := rfl

section

variable {num num' den : Nat}

theorem div_shiftLeft (num den s : Nat) : num / (den <<< s) = num / den / 2 ^ s := by
  rw [Nat.shiftLeft_eq, Nat.div_div_eq_div_mul]

theorem roundedPart_le (num den : Nat) : roundedPart num den ≤ 2 * fractionCount := by
  have hfraction : fractionCount = 2 ^ 52 := by decide
  have hlt : num / den < 2 * fractionCount * 2 ^ roundingShift num den := by
    calc num / den < 2 ^ ((num / den).log2 + 1) := Nat.lt_log2_self
      _ ≤ 2 ^ (53 + roundingShift num den) := by
          refine Nat.pow_le_pow_right (by decide) ?_
          rw [roundingShift]
          omega
      _ = 2 * fractionCount * 2 ^ roundingShift num den := by
          rw [hfraction, Nat.pow_add, ← Nat.pow_succ']
  have hquotient : num / (den <<< roundingShift num den) < 2 * fractionCount := by
    rw [div_shiftLeft]
    exact Nat.div_lt_of_lt_mul (by rwa [Nat.mul_comm])
  exact Nat.le_trans (roundDivEven_le _ _) hquotient

theorem le_roundedPart (h : 0 < roundingShift num den) : fractionCount ≤ roundedPart num den := by
  have hfraction : fractionCount = 2 ^ 52 := by decide
  have hlog : (num / den).log2 = 52 + roundingShift num den := by
    rw [roundingShift] at h ⊢
    omega
  have hne : num / den ≠ 0 := by
    intro hzero
    rw [roundingShift, hzero] at h
    exact absurd h (by decide)
  have hle : fractionCount * 2 ^ roundingShift num den ≤ num / den := by
    rw [hfraction, ← Nat.pow_add, ← hlog]
    exact Nat.log2_self_le hne
  have hquotient : fractionCount ≤ num / (den <<< roundingShift num den) := by
    rw [div_shiftLeft]
    exact (Nat.le_div_iff_mul_le (Nat.two_pow_pos _)).mpr hle
  exact Nat.le_trans hquotient (le_roundDivEven _ _)

theorem roundingShift_mono (h : num ≤ num') : roundingShift num den ≤ roundingShift num' den := by
  refine Nat.sub_le_sub_right ?_ 52
  have hdiv : num / den ≤ num' / den := Nat.div_le_div_right h
  rcases Nat.eq_zero_or_pos (num / den) with hzero | hpos
  · rw [hzero]
    exact Nat.zero_le _
  · have hself := Nat.log2_self_le (Nat.ne_of_gt hpos)
    exact (Nat.le_log2 (by omega)).mpr (Nat.le_trans hself hdiv)

/-- Rounding keeps the order of quotients. -/
theorem nearest_mono (h : num ≤ num') : nearest num den ≤ nearest num' den := by
  rw [nearest_eq, nearest_eq]
  have hsum : roundingShift num den * fractionCount + roundedPart num den ≤
      roundingShift num' den * fractionCount + roundedPart num' den := by
    have hmono : roundingShift num den ≤ roundingShift num' den := roundingShift_mono h
    rcases Nat.lt_or_eq_of_le hmono with hlt | heq
    · -- A larger shift is worth the fifty-three bits that the smaller quotient has at most.
      have hshift : (roundingShift num den + 1) * fractionCount ≤
          roundingShift num' den * fractionCount := Nat.mul_le_mul_right _ hlt
      have hupper := roundedPart_le num den
      have hlower : fractionCount ≤ roundedPart num' den := le_roundedPart (by omega)
      rw [Nat.add_mul] at hshift
      omega
    · rw [heq, roundedPart, roundedPart, heq]
      exact Nat.add_le_add_left (roundDivEven_mono h) _
  omega

theorem nearest_le {m : Nat} (hden : 0 < den) (h : num ≤ scaled m * den) : nearest num den ≤ m := by
  calc nearest num den ≤ nearest (scaled m * den) den := nearest_mono h
    _ = min m infinityBits := nearest_scaled m hden
    _ ≤ m := Nat.min_le_left _ _

theorem le_nearest {m : Nat} (hden : 0 < den) (hm : m ≤ infinityBits) (h : scaled m * den ≤ num) :
    m ≤ nearest num den := by
  calc m = min m infinityBits := (Nat.min_eq_left hm).symm
    _ = nearest (scaled m * den) den := (nearest_scaled m hden).symm
    _ ≤ nearest num den := nearest_mono h

/-- The value of a shift and a rounded quotient. -/
theorem scaled_rounded {q s : Nat} (hhigh : q ≤ 2 * fractionCount)
    (hlow : 0 < s → fractionCount ≤ q) : scaled (s * fractionCount + q) = q <<< s := by
  rcases Nat.eq_zero_or_pos s with rfl | hpos
  · rw [Nat.zero_mul, Nat.zero_add, Nat.shiftLeft_zero, scaled_of_le hhigh]
  · exact scaled_mul_add (hlow hpos) hhigh

/-- Rounding adds at most half a unit of its shift. -/
theorem scaled_nearest_le (num den : Nat) :
    2 * (scaled (nearest num den) * den) ≤ 2 * num + den <<< roundingShift num den := by
  have hvalue := scaled_rounded (roundedPart_le num den) le_roundedPart
  have hle : scaled (nearest num den) ≤ roundedPart num den <<< roundingShift num den := by
    rw [← hvalue, nearest_eq]
    exact scaled_strictMono.monotone (Nat.min_le_left _ _)
  calc 2 * (scaled (nearest num den) * den)
      ≤ 2 * ((roundedPart num den <<< roundingShift num den) * den) :=
        Nat.mul_le_mul_left _ (Nat.mul_le_mul_right _ hle)
    _ = 2 * (roundedPart num den * (den <<< roundingShift num den)) := by
        rw [Nat.shiftLeft_eq, Nat.shiftLeft_eq]
        ac_rfl
    _ ≤ 2 * num + den <<< roundingShift num den := roundDivEven_mul_le num _

end

/-! ### Whole numbers and halves -/

/-- Numbers of sixty-four bits are rounded to finite floats. -/
theorem isFinite_ofNat {n : Nat} (h : n < UInt64.size) : (ofNat n).isFinite = true := by
  have hlast : UInt64.size * unitsPerOne ≤ scaled (infinityBits - 1) * 1 := by decide +kernel
  have hle : n * unitsPerOne ≤ UInt64.size * unitsPerOne :=
    Nat.mul_le_mul_right _ (Nat.le_of_lt h)
  have hnearest := nearest_le Nat.one_pos (Nat.le_trans hle hlast)
  have hinfinity : 0 < infinityBits := by decide
  rw [isFinite_iff, (magnitude_ofNat n).1]
  omega

/-- Numbers of up to fifty-three bits, and the next power of two, are not rounded. -/
theorem scaled_ofNat {n : Nat} (h : n ≤ 2 ^ 53) :
    scaled (ofNat n).magnitude = n * unitsPerOne ∧ (ofNat n).isFinite = true := by
  have hfraction : 2 * fractionCount = 2 ^ 53 := by decide
  have hinfinity : infinityBits = 2047 * fractionCount := rfl
  obtain ⟨hscaled, hle⟩ := scaled_nearest_units h
  rw [isFinite_iff, (magnitude_ofNat n).1]
  exact ⟨hscaled, by omega⟩

/-- Halves of such numbers are not rounded either, so a quotient that is at least a half stays
there. -/
theorem half_le_scaled_nearest {num den n : Nat} (hden : 0 < den) (hn : n ≤ 2 ^ 53)
    (h : n * unitsPerOne * den ≤ 2 * num) : n * unitsPerOne ≤ 2 * scaled (nearest num den) := by
  have hfraction : 2 * fractionCount = 2 ^ 53 := by decide
  have hinfinity : infinityBits = 2047 * fractionCount := rfl
  obtain ⟨m, hm, hscaled⟩ := exists_scaled_shiftLeft n 1073
  have hvalue : 2 * scaled m = n * unitsPerOne := by
    rw [hscaled, scaled_of_le (hfraction ▸ hn), ← Nat.shiftLeft_succ, shiftLeft_eq_mul_one]
    rfl
  rw [← hvalue, Nat.mul_assoc] at h
  have hnearest : m ≤ nearest num den :=
    le_nearest hden (by omega) (Nat.le_of_mul_le_mul_left h (by decide))
  rw [← hvalue]
  exact Nat.mul_le_mul_left 2 (scaled_strictMono.monotone hnearest)

end Binary64

end CommandBridge
