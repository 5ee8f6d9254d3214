import CommandBridge.Binary64.Layout
import CommandBridge.Binary64.Reading
import CommandBridge.Proofs.Text.Numerals
import Mathlib.Algebra.Group.Nat.Defs

/-!
# Whole numbers as floats

Natural numbers of up to fifty-three bits are floats: `Binary64.ofNat` does not round them
(`isWhole_ofNat`). What is said here about other operations follows from two facts about
magnitudes:

* the value after a magnitude is larger by one unit of the magnitude's own shift
  (`scaled_add_one`), so the neighbours of a float are known;
* the value of a magnitude is hit exactly by rounding (`nearest_scaled`).
-/

namespace CommandBridge

namespace Binary64

/-! ### Magnitudes and their neighbours -/

theorem shift_of_lt {m : Nat} (h : m < 2 * fractionCount) : shift m = 0 := by
  have hdiv : m / fractionCount < 2 := Nat.div_lt_of_lt_mul (by omega)
  rw [shift]
  omega

/-- The magnitude with a given shift and a significand of fifty-three bits. -/
theorem shift_mul_add {q s : Nat} (hlow : fractionCount ≤ q) (hhigh : q < 2 * fractionCount) :
    shift (s * fractionCount + q) = s := by
  have hpos : 0 < fractionCount := by decide
  have hdiv : (s * fractionCount + q) / fractionCount = s + 1 := by
    rw [Nat.div_eq_iff hpos]
    constructor
    · rw [Nat.add_mul]
      omega
    · rw [Nat.add_mul]
      omega
  rw [shift, hdiv, Nat.add_sub_cancel]

/-- The value of a magnitude with a significand of fifty-three bits. A full significand is the first
one of the next shift. -/
theorem scaled_mul_add {q s : Nat} (hlow : fractionCount ≤ q) (hhigh : q ≤ 2 * fractionCount) :
    scaled (s * fractionCount + q) = q <<< s := by
  rcases Nat.lt_or_eq_of_le hhigh with hlt | rfl
  · rw [scaled, significand, shift_mul_add hlow hlt, Nat.add_sub_cancel_left]
  · have hnext : s * fractionCount + 2 * fractionCount =
        (s + 1) * fractionCount + fractionCount := by
      rw [Nat.add_mul]
      omega
    rw [hnext, scaled, significand, shift_mul_add (Nat.le_refl _) (by decide),
      Nat.add_sub_cancel_left, Nat.shiftLeft_eq, Nat.shiftLeft_eq, Nat.pow_succ]
    ac_rfl

/-- Natural numbers of up to fifty-three bits, and the next power of two, are values. -/
theorem scaled_of_le {n : Nat} (h : n ≤ 2 * fractionCount) : scaled n = n := by
  rcases Nat.lt_or_eq_of_le h with hlt | rfl
  · rw [scaled, significand, shift_of_lt hlt, Nat.zero_mul, Nat.sub_zero, Nat.shiftLeft_zero]
  · have hfull := scaled_mul_add (s := 0) (by decide) (Nat.le_refl (2 * fractionCount))
    rwa [Nat.zero_mul, Nat.zero_add, Nat.shiftLeft_zero] at hfull

/-- A magnitude is small, or it has a significand of fifty-three bits. -/
theorem exists_significand (m : Nat) :
    m < 2 * fractionCount ∨
      ∃ s q, fractionCount ≤ q ∧ q < 2 * fractionCount ∧ m = s * fractionCount + q := by
  have hsplit := shift_mul_add_significand m
  rcases Nat.lt_or_ge m fractionCount with hm | hm
  · exact .inl (by omega)
  · refine .inr ⟨shift m, significand m, ?_, significand_lt m, hsplit.symm⟩
    have hone : 1 ≤ m / fractionCount := Nat.div_pos hm (by decide)
    have hshift : shift m * fractionCount + fractionCount = m / fractionCount * fractionCount := by
      rw [shift, ← Nat.succ_mul, Nat.succ_eq_add_one, Nat.sub_add_cancel hone]
    have hle := Nat.div_mul_le_self m fractionCount
    omega

/-- The value after a magnitude is larger by one unit of the magnitude's shift. -/
theorem scaled_add_one (m : Nat) : scaled (m + 1) = scaled m + 1 <<< shift m := by
  rcases exists_significand m with hsmall | ⟨s, q, hlow, hhigh, rfl⟩
  · rw [shift_of_lt hsmall, scaled_of_le (Nat.le_of_lt hsmall), scaled_of_le hsmall]
    rfl
  · rw [shift_mul_add hlow hhigh, scaled_mul_add hlow (Nat.le_of_lt hhigh), Nat.add_assoc,
      scaled_mul_add (Nat.le_add_right_of_le hlow) hhigh, Nat.shiftLeft_eq, Nat.shiftLeft_eq,
      Nat.shiftLeft_eq, Nat.add_mul]

/-- The double of a value is a value, too. -/
theorem exists_scaled_double (m : Nat) :
    ∃ m' ≤ m + fractionCount, scaled m' = 2 * scaled m := by
  rcases Nat.lt_or_ge m fractionCount with hsmall | hlarge
  · refine ⟨2 * m, by omega, ?_⟩
    rw [scaled_of_le (by omega), scaled_of_le (by omega)]
  · refine ⟨m + fractionCount, Nat.le_refl _, ?_⟩
    rcases exists_significand m with hm | ⟨s, q, hlow, hhigh, rfl⟩
    · have hnext : m + fractionCount = 1 * fractionCount + m := by omega
      rw [hnext, scaled_mul_add hlarge (Nat.le_of_lt hm), scaled_of_le (Nat.le_of_lt hm),
        Nat.shiftLeft_eq, Nat.mul_comm]
    · have hnext : s * fractionCount + q + fractionCount = (s + 1) * fractionCount + q := by
        rw [Nat.add_mul]
        omega
      rw [hnext, scaled_mul_add hlow (Nat.le_of_lt hhigh),
        scaled_mul_add hlow (Nat.le_of_lt hhigh), Nat.shiftLeft_succ]

/-- The value of a magnitude times a power of two is that of another magnitude. -/
theorem exists_scaled_shiftLeft (m t : Nat) :
    ∃ m' ≤ m + t * fractionCount, scaled m' = scaled m <<< t := by
  induction t with
  | zero => exact ⟨m, by omega, by rw [Nat.shiftLeft_zero]⟩
  | succ t ih =>
    obtain ⟨m', hm', hscaled⟩ := ih
    obtain ⟨m'', hm'', hdouble⟩ := exists_scaled_double m'
    refine ⟨m'', ?_, by rw [hdouble, hscaled, Nat.shiftLeft_succ]⟩
    rw [Nat.add_mul]
    omega

/-! ### Exact rounding -/

theorem log2_shiftLeft {q s : Nat} (hlow : fractionCount ≤ q) (hhigh : q < 2 * fractionCount) :
    (q <<< s).log2 = 52 + s := by
  have hq : q ≠ 0 := by
    intro h
    subst h
    exact absurd hlow (by decide)
  have hfraction : fractionCount = 2 ^ 52 := by decide
  rw [hfraction] at hlow hhigh
  rw [Nat.shiftLeft_eq, Nat.log2_eq_iff (Nat.mul_ne_zero hq (Nat.ne_of_gt (Nat.two_pow_pos s)))]
  constructor
  · rw [Nat.pow_add]
    exact Nat.mul_le_mul_right _ hlow
  · rw [Nat.add_right_comm, Nat.pow_add]
    refine Nat.mul_lt_mul_of_pos_right ?_ (Nat.two_pow_pos s)
    omega

theorem shiftLeft_pos {n : Nat} (hn : 0 < n) (s : Nat) : 0 < n <<< s := by
  rw [Nat.shiftLeft_eq]
  exact Nat.mul_pos hn (Nat.two_pow_pos s)

theorem nearest_le_infinityBits (num den : Nat) : nearest num den ≤ infinityBits :=
  Nat.min_le_right _ _

/-- A multiple of the value of a magnitude, divided by its factor, is rounded to the magnitude. -/
theorem nearest_scaled (m : Nat) {den : Nat} (hden : 0 < den) :
    nearest (scaled m * den) den = min m infinityBits := by
  have hround : ∀ q s, roundDivEven ((q <<< s) * den) (den <<< s) = q := by
    intro q s
    have hnum : (q <<< s) * den = q * (den <<< s) := by
      rw [Nat.shiftLeft_eq, Nat.shiftLeft_eq]
      ac_rfl
    rw [hnum, roundDivEven_mul_right q _ (shiftLeft_pos hden s)]
  rw [nearest, Nat.mul_div_cancel _ hden]
  rcases exists_significand m with hsmall | ⟨s, q, hlow, hhigh, rfl⟩
  · have hlog : m.log2 - 52 = 0 := by
      have hlt : m.log2 < 53 := by
        rcases Nat.eq_zero_or_pos m with rfl | hpos
        · decide
        · exact (Nat.log2_lt (Nat.ne_of_gt hpos)).mpr hsmall
      omega
    have hexact := hround m 0
    rw [Nat.shiftLeft_zero] at hexact
    rw [scaled_of_le (Nat.le_of_lt hsmall), hlog, hexact, Nat.zero_mul, Nat.zero_add]
  · rw [scaled_mul_add hlow (Nat.le_of_lt hhigh), log2_shiftLeft hlow hhigh,
      Nat.add_sub_cancel_left, hround]

/-! ### Whole numbers -/

theorem shiftLeft_eq_mul_one (n s : Nat) : n <<< s = n * 1 <<< s := by
  rw [Nat.one_shiftLeft, Nat.shiftLeft_eq]

theorem one_shiftLeft_mono {s t : Nat} (h : s ≤ t) : 1 <<< s ≤ 1 <<< t := by
  rw [Nat.one_shiftLeft, Nat.one_shiftLeft]
  exact Nat.pow_le_pow_right (by decide) h

theorem unitsPerOne_pos : 0 < unitsPerOne := shiftLeft_pos Nat.one_pos 1074

/-- Whole numbers of up to fifty-three bits, and the next power of two, are values. -/
theorem exists_scaled_units {n : Nat} (h : n ≤ 2 ^ 53) :
    ∃ m ≤ n + 1074 * fractionCount, scaled m = n * unitsPerOne := by
  have hfraction : 2 * fractionCount = 2 ^ 53 := by decide
  obtain ⟨m, hm, hscaled⟩ := exists_scaled_shiftLeft n 1074
  refine ⟨m, hm, ?_⟩
  rw [hscaled, scaled_of_le (hfraction ▸ h), shiftLeft_eq_mul_one, ← unitsPerOne]

/-- They are not changed by rounding. -/
theorem scaled_nearest_units {n : Nat} (h : n ≤ 2 ^ 53) :
    scaled (nearest (n * unitsPerOne) 1) = n * unitsPerOne ∧
      nearest (n * unitsPerOne) 1 ≤ n + 1074 * fractionCount := by
  have hfraction : 2 * fractionCount = 2 ^ 53 := by decide
  have hinfinity : infinityBits = 2047 * fractionCount := rfl
  obtain ⟨m, hm, hscaled⟩ := exists_scaled_units h
  have hnearest : nearest (n * unitsPerOne) 1 = m := by
    rw [← hscaled, ← Nat.mul_one (scaled m), nearest_scaled m Nat.one_pos,
      Nat.min_eq_left (by omega)]
  rw [hnearest]
  exact ⟨hscaled, hm⟩

/-- The magnitude of a positive whole number of at most fifty-three bits. -/
structure IsWhole (n m : Nat) : Prop where
  pos : 0 < n
  /-- It stands for the number exactly. -/
  scaled_eq : scaled m = n * unitsPerOne
  shift_le : shift m ≤ 1074
  finite : m < infinityBits

theorem isWhole_nearest {n : Nat} (hpos : 0 < n) (h : n < 2 ^ 53) :
    IsWhole n (nearest (n * unitsPerOne) 1) := by
  have hfraction : 2 * fractionCount = 2 ^ 53 := by decide
  have hinfinity : infinityBits = 2047 * fractionCount := rfl
  obtain ⟨hscaled, hle⟩ := scaled_nearest_units (Nat.le_of_lt h)
  have hdiv : nearest (n * unitsPerOne) 1 / fractionCount < 1076 :=
    Nat.div_lt_of_lt_mul (by omega)
  constructor
  · exact hpos
  · exact hscaled
  · rw [shift]
    omega
  · omega

namespace IsWhole

variable {n m : Nat}

theorem magnitude_pos (h : IsWhole n m) : 0 < m := by
  refine Nat.pos_of_ne_zero ?_
  rintro rfl
  have hzero := h.scaled_eq
  rw [scaled_zero] at hzero
  have hunits := unitsPerOne_pos
  have hprod := Nat.mul_pos h.pos hunits
  omega

/-- Its neighbours are less than one away. -/
theorem neighbours (h : IsWhole n m) :
    n * unitsPerOne < scaled (m + 1) ∧ scaled (m + 1) ≤ n * unitsPerOne + unitsPerOne ∧
      scaled (m - 1) < n * unitsPerOne ∧ n * unitsPerOne ≤ scaled (m - 1) + unitsPerOne := by
  have hunit : ∀ s ≤ 1074, 0 < 1 <<< s ∧ 1 <<< s ≤ unitsPerOne :=
    fun s hs => ⟨shiftLeft_pos Nat.one_pos s, one_shiftLeft_mono hs⟩
  have hshift : shift (m - 1) ≤ shift m :=
    Nat.sub_le_sub_right (Nat.div_le_div_right (Nat.sub_le m 1)) 1
  have hnext := scaled_add_one m
  have hbefore := scaled_add_one (m - 1)
  rw [Nat.sub_add_cancel h.magnitude_pos] at hbefore
  rw [h.scaled_eq] at hnext hbefore
  obtain ⟨hpos, hle⟩ := hunit _ h.shift_le
  obtain ⟨hpos', hle'⟩ := hunit _ (Nat.le_trans hshift h.shift_le)
  omega

/-- Of all whole numbers, it is the only one that reads back as the magnitude. -/
theorem readsBack_iff (h : IsWhole n m) (k : Nat) :
    readsBack m 1 (2 * (k * unitsPerOne)) = decide (k = n) := by
  obtain ⟨hnext, hnext', hbefore, hbefore'⟩ := h.neighbours
  have hunits := unitsPerOne_pos
  rw [readsBack, h.scaled_eq]
  simp only [Nat.mul_one]
  by_cases hk : k = n
  · subst hk
    simp only [decide_true]
    split <;> simp only [Bool.and_eq_true, decide_eq_true_eq] <;> omega
  · -- Another whole number is at least one away, twice as far as the ends of the interval.
    have haway : k * unitsPerOne + unitsPerOne ≤ n * unitsPerOne ∨
        n * unitsPerOne + unitsPerOne ≤ k * unitsPerOne := by
      rw [← Nat.succ_mul, ← Nat.succ_mul]
      rcases Nat.lt_or_gt_of_ne hk with hlt | hlt
      · exact .inl (Nat.mul_le_mul_right _ hlt)
      · exact .inr (Nat.mul_le_mul_right _ hlt)
    simp only [hk, decide_false]
    split <;> simp only [Bool.and_eq_false_iff, decide_eq_false_iff_not] <;> omega

/-! ### The shortest digits -/

/-- On the grid of a power of ten that divides the number lies the number itself, and on the grid of
one that does not lies nothing that reads back. -/
theorem onGrid_eq (h : IsWhole n m) (tie : TieRule) (e : Nat) :
    onGrid tie m e = if Nat.pow 10 e ∣ n then some ⟨n / Nat.pow 10 e, e⟩ else none := by
  have hten : 0 < Nat.pow 10 e := Nat.pow_pos (by decide)
  have hbelow : scaled m * 1 / (unitsPerOne * Nat.pow 10 e) = n / Nat.pow 10 e := by
    rw [h.scaled_eq, Nat.mul_one, Nat.mul_comm unitsPerOne,
      Nat.mul_div_mul_right _ _ unitsPerOne_pos]
  have hpoint : ∀ k, 2 * (k * (unitsPerOne * Nat.pow 10 e)) =
      2 * (k * Nat.pow 10 e * unitsPerOne) := by
    intro k
    ac_rfl
  have hupper : (n / Nat.pow 10 e + 1) * Nat.pow 10 e ≠ n := by
    have hlt := Nat.lt_div_mul_add (a := n) hten
    rw [Nat.add_mul, Nat.one_mul]
    omega
  have hneg : (-(e : Int)).toNat = 0 := by omega
  simp only [onGrid, hneg, Int.toNat_natCast, Nat.pow_eq, Nat.pow_zero] at *
  simp only [hbelow, hpoint, h.readsBack_iff, hupper, decide_false]
  by_cases hdvd : 10 ^ e ∣ n
  · simp [Nat.div_mul_cancel hdvd, hdvd]
  · have hne : n / 10 ^ e * 10 ^ e ≠ n := mt (Nat.dvd_iff_div_mul_eq n _).mpr hdvd
    simp [hne, hdvd]

theorem leadingExponent_eq (h : IsWhole n m) :
    leadingExponent (scaled m) unitsPerOne = ((Nat.toDigits 10 n).length : Int) - 1 := by
  have hle : unitsPerOne ≤ n * unitsPerOne := Nat.le_mul_of_pos_left _ h.pos
  rw [h.scaled_eq, leadingExponent, if_pos hle, Nat.mul_div_cancel _ unitsPerOne_pos]

/-- The grids from that of the first digit down to the ones have a hit, and it is the number. -/
theorem exists_hit (h : IsWhole n m) (tie : TieRule) (k : Nat) :
    ∃ e : Nat, Nat.pow 10 e ∣ n ∧
      (List.range (k + 1)).findSome? (fun i : Nat => onGrid tie m ((k : Int) - (i : Int))) =
        some ⟨n / Nat.pow 10 e, e⟩ := by
  have hgrid : ∀ i ∈ List.range (k + 1), onGrid tie m ((k : Int) - (i : Int)) =
      if Nat.pow 10 (k - i) ∣ n then some ⟨n / Nat.pow 10 (k - i), (k - i : Nat)⟩ else none := by
    intro i hi
    have hle : i ≤ k := Nat.le_of_lt_succ (List.mem_range.mp hi)
    rw [← h.onGrid_eq, Int.ofNat_sub hle]
  have hlast : k ∈ List.range (k + 1) := List.mem_range.mpr (Nat.lt_succ_self k)
  -- The grid of the ones is among them.
  obtain ⟨d, hd⟩ : ∃ d, (List.range (k + 1)).findSome?
      (fun i : Nat => onGrid tie m ((k : Int) - (i : Int))) = some d := by
    rw [← Option.isSome_iff_exists, List.findSome?_isSome_iff]
    refine ⟨k, hlast, ?_⟩
    rw [hgrid k hlast, Nat.sub_self]
    simp
  obtain ⟨i, hi, hhit⟩ := List.exists_of_findSome?_eq_some hd
  rw [hgrid i hi] at hhit
  split at hhit
  case isTrue hdvd =>
    cases hhit
    exact ⟨k - i, hdvd, hd⟩
  case isFalse => cases hhit

/-- The shortest digits of a whole number of at most seventeen digits are its own, without some of
the zeros at its end. -/
theorem exists_shortest (h : IsWhole n m) (tie : TieRule) (hn : n < 10 ^ 17) :
    ∃ digits e : Nat, shortest tie m = ⟨digits, e⟩ ∧ digits * Nat.pow 10 e = n := by
  have hseventeen : (Nat.toDigits 10 n).length ≤ 17 :=
    (Nat.length_toDigits_le_iff (by decide) (by decide)).mpr hn
  obtain ⟨k, hk⟩ : ∃ k, (Nat.toDigits 10 n).length = k + 1 :=
    ⟨_, (Nat.succ_pred_eq_of_pos Nat.length_toDigits_pos).symm⟩
  have hleading : leadingExponent (scaled m) unitsPerOne = k := by
    rw [h.leadingExponent_eq, hk]
    omega
  have hrange : List.range 17 = List.range (k + 1) ++ (List.range (16 - k)).map (k + 1 + ·) := by
    rw [← List.range_add]
    congr 1
    omega
  obtain ⟨e, hdvd, hhit⟩ := h.exists_hit tie k
  have hvalue : n / Nat.pow 10 e * Nat.pow 10 e = n := Nat.div_mul_cancel hdvd
  rw [shortest, hleading, hrange, List.findSome?_append, hhit, Option.some_or, Option.getD_some,
    Decimal.carried]
  split
  case isTrue hten =>
    have hten' : n / Nat.pow 10 e = 10 := hten
    refine ⟨1, e + 1, rfl, ?_⟩
    rw [hten'] at hvalue
    rw [Nat.one_mul, ← hvalue]
    exact Nat.mul_comm _ _
  case isFalse => exact ⟨_, e, rfl, hvalue⟩

end IsWhole

/-- The float of a magnitude without its sign. -/
theorem magnitude_ofMagnitude {m : Nat} (h : m ≤ infinityBits) :
    (ofMagnitude false m).magnitude = m ∧ (ofMagnitude false m).isNegative = false := by
  have hlt : m < signBit := Nat.lt_of_le_of_lt h (by decide)
  have hbits : (ofMagnitude false m).bits.toNat = m := by
    simp only [ofMagnitude, Bool.false_eq_true, ↓reduceIte]
    rw [UInt64.toNat_ofNat']
    exact Nat.mod_eq_of_lt (Nat.lt_of_lt_of_le hlt (by decide))
  constructor
  · rw [magnitude, hbits, Nat.mod_eq_of_lt hlt]
  · rw [isNegative, hbits]
    exact decide_eq_false (Nat.not_le_of_gt hlt)

theorem isFinite_iff {x : Binary64} : x.isFinite = true ↔ x.magnitude < infinityBits :=
  decide_eq_true_iff

theorem isFinite_ofMagnitude {m : Nat} (h : m ≤ infinityBits) :
    (ofMagnitude false m).isFinite = true ↔ m < infinityBits := by
  rw [isFinite_iff, (magnitude_ofMagnitude h).1]

theorem magnitude_ofNat (n : Nat) :
    (ofNat n).magnitude = nearest (n * unitsPerOne) 1 ∧ (ofNat n).isNegative = false :=
  magnitude_ofMagnitude (nearest_le_infinityBits _ _)

theorem isWhole_ofNat {n : Nat} (hpos : 0 < n) (h : n < 2 ^ 53) :
    IsWhole n (ofNat n).magnitude ∧ (ofNat n).isNegative = false := by
  obtain ⟨hmagnitude, hsign⟩ := magnitude_ofNat n
  rw [hmagnitude]
  exact ⟨isWhole_nearest hpos h, hsign⟩

/-! ### Written whole numbers -/

end Binary64

open Text

/-- A whole number that is written positionally has its own numeral. -/
theorem Layout.write_ofNat {layout : Layout} {n : Nat} (hpos : 0 < n) (h : n < 2 ^ 53)
    (hpositional : layout.positional (Nat.toDigits 10 n).length = true) :
    layout.write (Binary64.ofNat n) =
      ⟨false, Nat.toDigits 10 n, layout.wholeFraction, none⟩ := by
  obtain ⟨hwhole, hsign⟩ := Binary64.isWhole_ofNat hpos h
  obtain ⟨digits, e, hshortest, hvalue⟩ :=
    hwhole.exists_shortest layout.tie (Nat.lt_trans h (by decide))
  have hzero : (Binary64.ofNat n).isZero = false :=
    decide_eq_false (Nat.ne_of_gt hwhole.magnitude_pos)
  have hdigits : 0 < digits := by
    refine Nat.pos_of_ne_zero ?_
    rintro rfl
    omega
  have hnumeral : Nat.toDigits 10 digits ++ List.replicate e '0' = Nat.toDigits 10 n := by
    rw [← toDigits_mul_pow hdigits, hvalue]
  have hpoint : ((Nat.toDigits 10 digits).length : Int) + (e : Int) =
      ((Nat.toDigits 10 n).length : Int) := by
    rw [← hnumeral, List.length_append, List.length_replicate]
    rfl
  have hwhole : (0 : Int) ≤ e := Int.natCast_nonneg e
  rw [write, hzero, hsign, hshortest]
  simp only [literal, hpoint, hpositional, hwhole, Int.toNat_natCast, hnumeral, ↓reduceIte,
    Bool.false_eq_true]

namespace ScaledDigits

theorem le_foldl (digits : List Char) (n : Nat) :
    n ≤ digits.foldl (fun n c => n * 10 + (digitValue? c).getD 0) n := by
  induction digits generalizing n with
  | nil => exact Nat.le_refl n
  | cons c rest ih =>
    have hpush : n ≤ n * 10 + (digitValue? c).getD 0 := by omega
    exact Nat.le_trans hpush (ih _)

/-- Digits in front of the point are gathered completely if their number has room. -/
theorem gatherWhole_eq {n : Nat} {digits : List Char}
    (h : digits.foldl (fun n c => n * 10 + (digitValue? c).getD 0) n < UInt64.size) :
    gatherWhole n digits = ⟨digits.foldl (fun n c => n * 10 + (digitValue? c).getD 0) n, 0⟩ := by
  induction digits generalizing n with
  | nil => rfl
  | cons c rest ih =>
    have hlt : n * 10 + (digitValue? c).getD 0 < UInt64.size :=
      Nat.lt_of_le_of_lt (le_foldl rest _) h
    have hpush : push? n c = some (n * 10 + (digitValue? c).getD 0) := if_pos hlt
    rw [gatherWhole, hpush]
    exact ih h

/-- The digits of a whole number that is written with a zero behind its point. -/
theorem ofLiteral_whole {n : Nat} (h : n * 10 < UInt64.size) :
    ofLiteral ⟨false, Nat.toDigits 10 n, ['0'], none⟩ = ⟨n * 10, -1⟩ := by
  have hvalue : (Nat.toDigits 10 n).foldl (fun n c => n * 10 + (digitValue? c).getD 0) 0 = n :=
    numeralValue_toDigits n
  have hwhole : gatherWhole 0 (Nat.toDigits 10 n) = ⟨n, 0⟩ := by
    rw [gatherWhole_eq (by rw [hvalue]; omega), hvalue]
  have hpush : push? n '0' = some (n * 10) := if_pos h
  rw [ofLiteral, hwhole]
  simp only [gatherFraction, hpush, Option.getD_none]
  rfl

end ScaledDigits

/-- Rounding does not depend on the units. -/
theorem roundDivEven_mul_mul (num den : Nat) {k : Nat} (hk : 0 < k) :
    roundDivEven (num * k) (den * k) = roundDivEven num den := by
  have hlow : 2 * (num * k % (den * k)) < den * k ↔ 2 * (num % den) < den := by
    rw [Nat.mul_mod_mul_right, ← Nat.mul_assoc]
    exact Nat.mul_lt_mul_right hk
  have hhigh : den * k < 2 * (num * k % (den * k)) ↔ den < 2 * (num % den) := by
    rw [Nat.mul_mod_mul_right, ← Nat.mul_assoc]
    exact Nat.mul_lt_mul_right hk
  simp only [roundDivEven, hlow, hhigh, Nat.mul_div_mul_right _ _ hk]

namespace Binary64

theorem nearest_mul_mul (num den : Nat) {k : Nat} (hk : 0 < k) :
    nearest (num * k) (den * k) = nearest num den := by
  have hshift : ∀ s, (den * k) <<< s = (den <<< s) * k := by
    intro s
    rw [Nat.shiftLeft_eq, Nat.shiftLeft_eq]
    ac_rfl
  simp only [nearest, Nat.mul_div_mul_right _ _ hk, hshift, roundDivEven_mul_mul _ _ hk]

theorem isNaN_of_isFinite {x : Binary64} (h : x.isFinite = true) :
    x.isNaN = false ∧ x.isInfinite = false := by
  have hlt := isFinite_iff.mp h
  exact ⟨decide_eq_false (by omega), decide_eq_false (by omega)⟩

/-- The product of finite numbers. -/
theorem mul_of_isFinite {x y : Binary64} (hx : x.isFinite = true) (hy : y.isFinite = true) :
    x.mul y = ofMagnitude (x.isNegative != y.isNegative)
      (nearest (scaled x.magnitude * scaled y.magnitude) unitsPerOne) := by
  obtain ⟨hxnan, hxinf⟩ := isNaN_of_isFinite hx
  obtain ⟨hynan, hyinf⟩ := isNaN_of_isFinite hy
  simp only [mul, hxnan, hynan, hxinf, hyinf, Bool.or_self, Bool.false_eq_true, ↓reduceIte]

/-- The quotient of finite numbers. -/
theorem div_of_isFinite {x y : Binary64} (hx : x.isFinite = true) (hy : y.isFinite = true)
    (hzero : y.isZero = false) :
    x.div y = ofMagnitude (x.isNegative != y.isNegative)
      (nearest (scaled x.magnitude * unitsPerOne) (scaled y.magnitude)) := by
  obtain ⟨hxnan, hxinf⟩ := isNaN_of_isFinite hx
  obtain ⟨hynan, hyinf⟩ := isNaN_of_isFinite hy
  simp only [div, hxnan, hynan, hxinf, hyinf, hzero, Bool.or_self, Bool.false_eq_true, ↓reduceIte]

/-- A quotient by a whole number. -/
theorem div_ofNat_of_isFinite {x : Binary64} {k : Nat} (hx : x.isFinite = true) (hk : 0 < k)
    (h : k < 2 ^ 53) :
    x.div (ofNat k) = ofMagnitude x.isNegative (nearest (scaled x.magnitude) k) := by
  obtain ⟨hy, hysign⟩ := isWhole_ofNat hk h
  have hzero : (ofNat k).isZero = false := decide_eq_false (Nat.ne_of_gt hy.magnitude_pos)
  rw [div_of_isFinite hx (isFinite_iff.mpr hy.finite) hzero, hy.scaled_eq, hysign,
    nearest_mul_mul _ _ unitsPerOne_pos, Bool.bne_false]

/-- A multiple of a whole number, divided by that number. -/
theorem div_ofNat {n k : Nat} (hn : 0 < n) (hk : 0 < k) (h : n * k < 2 ^ 53) :
    (ofNat (n * k)).div (ofNat k) = ofNat n := by
  have hklt : k < 2 ^ 53 := Nat.lt_of_le_of_lt (Nat.le_mul_of_pos_left k hn) h
  obtain ⟨hx, hxsign⟩ := isWhole_ofNat (Nat.mul_pos hn hk) h
  have hnum : n * k * unitsPerOne = n * unitsPerOne * k := by ac_rfl
  have hquotient : nearest (n * unitsPerOne * k) k = nearest (n * unitsPerOne) 1 := by
    have hunit := nearest_mul_mul (n * unitsPerOne) 1 hk
    rwa [Nat.one_mul] at hunit
  rw [div_ofNat_of_isFinite (isFinite_iff.mpr hx.finite) hk hklt, hxsign, hx.scaled_eq, hnum,
    hquotient, ofNat]

/-- A whole number that is written with a zero behind its point is read back exactly, if there is
room for one digit more. -/
theorem ofLiteral?_whole {n : Nat} (hpos : 0 < n) (h : n * 10 < 2 ^ 53) :
    ofLiteral? ⟨false, Nat.toDigits 10 n, ['0'], none⟩ = some (ofNat n) := by
  have hroom : n * 10 < UInt64.size := Nat.lt_trans h (by decide)
  have hquotient : scaleByTen (ofNat (n * 10)) (-1) = some (ofNat n) := by
    have hten : powerOfTen (-1 : Int).natAbs = ofNat 10 := rfl
    rw [scaleByTen, if_pos (by decide), if_pos (by decide), hten, div_ofNat hpos (by decide) h]
  rw [ofLiteral?, ScaledDigits.ofLiteral_whole hroom]
  simp only [hquotient, Option.map_some, Bool.false_eq_true, ↓reduceIte]

end Binary64

end CommandBridge
