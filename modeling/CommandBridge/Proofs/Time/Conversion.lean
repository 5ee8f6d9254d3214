import CommandBridge.Proofs.Binary64.Order
import CommandBridge.Proofs.Bridge.Opening
import CommandBridge.Proofs.Session.Admitted

/-!
# Milliseconds as ticks

A time in milliseconds is converted in three roundings: the product with the rate, a thousandth of
it, and the whole ticks in that. For a finite positive rate all of this is a function of one
magnitude, the product's (`millisProduct`, `wholeTicks`, `toNat_ticksOfMillis`), unless the product
is too large for a finite number: then the answer is one tick (`ticksOfMillis_eq_one`).

* Each of the roundings keeps the order, so longer times have at least as many ticks, up to the
  first one whose product is too large (`ticksOfMillis_mono_iff`). From a rate of `2 ^ 960` on there
  is such a time, although settings with that rate are accepted; below it there is none.
* At a whole rate a product of up to fifty-three bits is not rounded, and neither are the halves
  between whole ticks. A thousandth that is not such a half lies at least a thousandth away from it,
  which is more than it is moved by (`scaled_nearest_thousandth`), so the roundings together are
  one (`ticksOfMillis_ofNat`).
-/

namespace CommandBridge

open Binary64

/-! ### The conversion in whole numbers -/

/-- The magnitude of the product of a time in milliseconds and a rate. -/
def millisProduct (ms : UInt64) (rate : Binary64) : Nat :=
  nearest (scaled (ofNat ms.toNat).magnitude * scaled rate.magnitude) unitsPerOne

/-- The whole ticks in a thousandth of a magnitude. -/
def wholeTicks (m : Nat) : Nat := roundDivUp (scaled (nearest (scaled m) 1000)) unitsPerOne

section

variable {rate : Binary64} (hfinite : rate.isFinite = true) (hsign : rate.isNegative = false)

include hfinite hsign

theorem mul_rate (ms : UInt64) :
    (ofNat ms.toNat).mul rate = ofMagnitude false (millisProduct ms rate) := by
  rw [mul_of_isFinite (isFinite_ofNat ms.toNat_lt) hfinite, (magnitude_ofNat _).2, hsign]
  rfl

theorem isFinite_mul_rate {ms : UInt64} :
    ((ofNat ms.toNat).mul rate).isFinite = true ↔ millisProduct ms rate < infinityBits := by
  rw [mul_rate hfinite hsign]
  exact isFinite_ofMagnitude (nearest_le_infinityBits _ _)

/-- The quotient of the product and a thousand. -/
theorem div_mul_rate {ms : UInt64} (h : millisProduct ms rate < infinityBits) :
    ((ofNat ms.toNat).mul rate).div (ofNat 1000) =
      ofMagnitude false (nearest (scaled (millisProduct ms rate)) 1000) := by
  obtain ⟨hmagnitude, hnegative⟩ := magnitude_ofMagnitude (Nat.le_of_lt h)
  rw [div_ofNat_of_isFinite ((isFinite_mul_rate hfinite hsign).mpr h) (by decide) (by decide),
    mul_rate hfinite hsign, hmagnitude, hnegative]

/-- As long as the product is finite, the ticks are those of its thousandth, within their limits. -/
theorem toNat_ticksOfMillis {ms : UInt64} (h : millisProduct ms rate < infinityBits) :
    (ticksOfMillis ms rate).toNat =
      max 1 (min (wholeTicks (millisProduct ms rate)) 0xFFFFFFFFFFFFFFFF) := by
  have hlt : nearest (scaled (millisProduct ms rate)) 1000 < infinityBits :=
    Nat.lt_of_le_of_lt (nearest_le (by decide) (Nat.le_mul_of_pos_right _ (by decide))) h
  have hquotient := (isFinite_ofMagnitude (Nat.le_of_lt hlt)).mpr hlt
  obtain ⟨hmagnitude, hnegative⟩ := magnitude_ofMagnitude (Nat.le_of_lt hlt)
  have hticks : (ofMagnitude false (nearest (scaled (millisProduct ms rate)) 1000)).roundAway =
      wholeTicks (millisProduct ms rate) := by
    rw [roundAway, hmagnitude, wholeTicks]
  simp only [ticksOfMillis, div_mul_rate hfinite hsign h, hquotient, hnegative, hticks,
    Bool.not_false, Bool.and_self, Bool.true_and, decide_eq_true_eq]
  split
  case isTrue hone =>
    rw [UInt64.toNat_ofNat_of_lt' (by simp only [UInt64.size]; omega)]
    omega
  case isFalse hzero =>
    rw [UInt64.toNat_one]
    omega

/-- A product that is too large for a finite number counts as one tick. -/
theorem ticksOfMillis_eq_one {ms : UInt64} (h : ¬ millisProduct ms rate < infinityBits) :
    ticksOfMillis ms rate = 1 := by
  have hinfinite : millisProduct ms rate = infinityBits :=
    Nat.le_antisymm (nearest_le_infinityBits _ _) (Nat.le_of_not_lt h)
  have hquotient : (((ofNat ms.toNat).mul rate).div (ofNat 1000)).isFinite = false := by
    rw [mul_rate hfinite hsign, hinfinite]
    decide +kernel
  simp only [ticksOfMillis, hquotient, Bool.false_and, Bool.false_eq_true, ↓reduceIte]

end

/-! ### Longer times -/

theorem Settings.rate_of_check {s : Settings} (h : s.check = .ok ()) :
    s.tickRate.isFinite = true ∧ s.tickRate.isNegative = false := by
  obtain ⟨-, -, hrate, -⟩ := check_eq_ok.mp h
  simp only [isUsableRate, Bool.and_eq_true, Bool.not_eq_true'] at hrate
  exact ⟨hrate.1.1.1, hrate.1.2⟩

theorem millisProduct_mono {a b : UInt64} (h : a ≤ b) (rate : Binary64) :
    millisProduct a rate ≤ millisProduct b rate := by
  have hle : a.toNat * unitsPerOne ≤ b.toNat * unitsPerOne :=
    Nat.mul_le_mul_right _ (UInt64.le_iff_toNat_le.mp h)
  refine nearest_mono (Nat.mul_le_mul_right _ (scaled_strictMono.monotone ?_))
  rw [(magnitude_ofNat _).1, (magnitude_ofNat _).1]
  exact nearest_mono hle

theorem wholeTicks_mono {m m' : Nat} (h : m ≤ m') : wholeTicks m ≤ wholeTicks m' :=
  roundDivUp_mono (scaled_strictMono.monotone (nearest_mono (scaled_strictMono.monotone h)))

section

variable {rate : Binary64} (hfinite : rate.isFinite = true) (hsign : rate.isNegative = false)

include hfinite hsign

/-- The ticks of a longer time are fewer only if its product with the rate is too large. -/
theorem ticksOfMillis_le_iff {a b : UInt64} (h : a ≤ b) :
    ticksOfMillis a rate ≤ ticksOfMillis b rate ↔
      millisProduct b rate < infinityBits ∨ ticksOfMillis a rate = 1 := by
  rw [UInt64.le_iff_toNat_le, ← UInt64.toNat_inj, UInt64.toNat_one]
  have hpos : 1 ≤ (ticksOfMillis a rate).toNat :=
    Nat.pos_of_ne_zero fun hzero => ticksOfMillis_ne_zero a rate (UInt64.toNat_inj.mp hzero)
  by_cases hb : millisProduct b rate < infinityBits
  · have hproduct := millisProduct_mono h rate
    have hticks := wholeTicks_mono hproduct
    rw [toNat_ticksOfMillis hfinite hsign hb,
      toNat_ticksOfMillis hfinite hsign (Nat.lt_of_le_of_lt hproduct hb)]
    exact iff_of_true (by omega) (.inl hb)
  · rw [ticksOfMillis_eq_one hfinite hsign hb, UInt64.toNat_one]
    constructor
    · exact fun hle => .inr (Nat.le_antisymm hle hpos)
    · rintro (hlt | hone)
      · exact absurd hlt hb
      · exact Nat.le_of_eq hone

end

/-- The product of the longest time is finite exactly for rates below `2 ^ 960`. -/
theorem millisProduct_last (rate : Binary64) :
    millisProduct 0xFFFFFFFFFFFFFFFF rate < infinityBits ↔
      scaled rate.magnitude < 2 ^ 960 * unitsPerOne := by
  -- The longest time is rounded to a power of two.
  have hlast : scaled (ofNat (0xFFFFFFFFFFFFFFFF : UInt64).toNat).magnitude =
      2 ^ 64 * unitsPerOne := by decide +kernel
  have hinfinity : scaled infinityBits = 2 ^ 960 * unitsPerOne * 2 ^ 64 := by decide +kernel
  obtain ⟨m, -, hm⟩ := exists_scaled_shiftLeft rate.magnitude 64
  rw [Nat.shiftLeft_eq] at hm
  have hproduct : 2 ^ 64 * unitsPerOne * scaled rate.magnitude = scaled m * unitsPerOne := by
    rw [hm]
    ac_rfl
  rw [millisProduct, hlast, hproduct, nearest_scaled m unitsPerOne_pos]
  obtain ⟨limit, hlimit⟩ : ∃ limit, limit = 2 ^ 960 * unitsPerOne := ⟨_, rfl⟩
  rw [← hlimit] at hinfinity ⊢
  calc min m infinityBits < infinityBits ↔ m < infinityBits := by omega
    _ ↔ scaled m < scaled infinityBits := scaled_strictMono.lt_iff_lt.symm
    _ ↔ scaled rate.magnitude < limit := by
        rw [hm, hinfinity]
        exact Nat.mul_lt_mul_right (Nat.two_pow_pos 64)

/-- At a rate of at least two thousand a millisecond is more than one tick. -/
theorem two_le_ticksOfMillis_one {rate : Binary64} (hfinite : rate.isFinite = true)
    (hsign : rate.isNegative = false) (h : 2000 * unitsPerOne ≤ scaled rate.magnitude) :
    2 ≤ (ticksOfMillis 1 rate).toNat := by
  have hone : scaled (ofNat (1 : UInt64).toNat).magnitude = unitsPerOne := by decide +kernel
  have hmagnitude := isFinite_iff.mp hfinite
  have hproduct : millisProduct 1 rate = rate.magnitude := by
    rw [millisProduct, hone, Nat.mul_comm, nearest_scaled _ unitsPerOne_pos,
      Nat.min_eq_left (Nat.le_of_lt hmagnitude)]
  have htwo : scaled (ofNat 2).magnitude = 2 * unitsPerOne := by decide +kernel
  have hquotient : (ofNat 2).magnitude ≤ nearest (scaled rate.magnitude) 1000 := by
    refine le_nearest (by decide) (by decide +kernel) ?_
    rw [htwo, Nat.mul_right_comm]
    exact h
  have hvalue := scaled_strictMono.monotone hquotient
  rw [htwo] at hvalue
  have hticks : 2 ≤ wholeTicks rate.magnitude := by
    rw [wholeTicks, roundDivUp, Nat.le_div_iff_mul_le (Nat.mul_pos (by decide) unitsPerOne_pos)]
    exact Nat.le_add_right_of_le (Nat.mul_le_mul_left 2 hvalue)
  rw [toNat_ticksOfMillis hfinite hsign (hproduct ▸ hmagnitude), hproduct]
  exact Nat.le_trans (Nat.le_min.mpr ⟨hticks, by decide⟩) (Nat.le_max_right _ _)

/-- For acceptable settings, a longer time has fewer ticks exactly if its product with the rate is
too large for a finite number while the shorter time is more than one tick. No time is that long
exactly if the rate is below `2 ^ 960`. -/
theorem ticksOfMillis_mono_iff {s : Settings} (hcheck : s.check = .ok ()) :
    (∀ a b : UInt64, a ≤ b →
      (ticksOfMillis a s.tickRate ≤ ticksOfMillis b s.tickRate ↔
        ((ofNat b.toNat).mul s.tickRate).isFinite = true ∨ ticksOfMillis a s.tickRate = 1)) ∧
    ((∀ a b : UInt64, a ≤ b → ticksOfMillis a s.tickRate ≤ ticksOfMillis b s.tickRate) ↔
      scaled s.tickRate.magnitude < 2 ^ 960 * unitsPerOne) := by
  obtain ⟨hfinite, hsign⟩ := Settings.rate_of_check hcheck
  refine ⟨fun a b h => ?_, ?_⟩
  · rw [isFinite_mul_rate hfinite hsign]
    exact ticksOfMillis_le_iff hfinite hsign h
  rw [← millisProduct_last]
  constructor
  · intro hmono
    have hlast : (1 : UInt64) ≤ 0xFFFFFFFFFFFFFFFF := by decide
    rcases (ticksOfMillis_le_iff hfinite hsign hlast).mp (hmono _ _ hlast) with hlt | hone
    · exact hlt
    · -- A rate at which the longest time is too long is one at which the shortest is not one tick.
      refine Decidable.byContradiction fun hlarge => ?_
      rw [millisProduct_last, Nat.not_lt] at hlarge
      have htwo := two_le_ticksOfMillis_one hfinite hsign
        (Nat.le_trans (Nat.mul_le_mul_right _ (by decide +kernel)) hlarge)
      rw [hone] at htwo
      exact absurd htwo (by decide)
  · intro hlast a b h
    have hle : b ≤ 0xFFFFFFFFFFFFFFFF := UInt64.le_iff_toNat_le.mpr (Nat.le_of_lt_succ b.toNat_lt)
    exact (ticksOfMillis_le_iff hfinite hsign h).mpr
      (.inl (Nat.lt_of_le_of_lt (millisProduct_mono hle _) hlast))

/-- The standard settings with `10 ^ 300` ticks per second. -/
def Settings.fast : Settings := { standard with tickRate := ⟨0x7e37e43c8800759c⟩ }

/-- A tick at that rate takes no time, and that is acceptable. -/
theorem Settings.check_fast : fast.check = .ok () := check_of_isUsableRate (by decide +kernel)

/-- The product overflows between two times that are a millisecond apart. -/
theorem ticksOfMillis_fast :
    let rate := Settings.fast.tickRate
    ticksOfMillis 1 rate ≤ ticksOfMillis 179769313 rate ∧
      ¬ ticksOfMillis 1 rate ≤ ticksOfMillis 179769314 rate := by
  intro rate
  obtain ⟨hle, -⟩ := ticksOfMillis_mono_iff Settings.check_fast
  rw [hle _ _ (by decide), hle _ _ (by decide)]
  decide +kernel

/-- One millisecond is all ticks there are, and the longest hold is one tick. -/
theorem not_ticksOfMillis_mono :
    ¬ ∀ (s : Settings) (a b : UInt64), s.check = .ok () → a ≤ b →
      ticksOfMillis a s.tickRate ≤ ticksOfMillis b s.tickRate := by
  intro h
  exact absurd (h .fast 1 0x7FFFFFFFFFFFFFFF Settings.check_fast (by decide)) (by decide +kernel)

/-! ### Whole rates -/

/-- A thousandth of a whole number of up to fifty-three bits is moved up by less than a
thousandth. -/
theorem scaled_nearest_thousandth {n : Nat} (hn : n ≤ 2 ^ 53) :
    1000 * scaled (nearest (n * unitsPerOne) 1000) < n * unitsPerOne + unitsPerOne := by
  have hmono : roundingShift (n * unitsPerOne) 1000 ≤ roundingShift (2 ^ 53 * unitsPerOne) 1000 :=
    roundingShift_mono (Nat.mul_le_mul_right _ hn)
  have hshift : roundingShift (2 ^ 53 * unitsPerOne) 1000 = 1065 := by decide +kernel
  have hstep : 1000 <<< roundingShift (n * unitsPerOne) 1000 < 2 * unitsPerOne := by
    calc 1000 <<< roundingShift (n * unitsPerOne) 1000
        ≤ 1000 <<< 1065 := by
          rw [Nat.shiftLeft_eq, Nat.shiftLeft_eq, ← hshift]
          exact Nat.mul_le_mul_left _ (Nat.pow_le_pow_right (by decide) hmono)
      _ < 2 * unitsPerOne := by decide +kernel
  refine Nat.lt_of_mul_lt_mul_left (a := 2) ?_
  calc 2 * (1000 * scaled (nearest (n * unitsPerOne) 1000))
      = 2 * (scaled (nearest (n * unitsPerOne) 1000) * 1000) := by rw [Nat.mul_comm 1000]
    _ ≤ 2 * (n * unitsPerOne) + 1000 <<< roundingShift (n * unitsPerOne) 1000 :=
        scaled_nearest_le _ _
    _ < 2 * (n * unitsPerOne) + 2 * unitsPerOne := Nat.add_lt_add_left hstep _
    _ = 2 * (n * unitsPerOne + unitsPerOne) := (Nat.mul_add _ _ _).symm

/-- What is at least the half below a whole number, and less than a thousandth above a number of
thousandths that is rounded to it, is rounded to it. -/
theorem roundDivUp_of_bounds {v u n k : Nat} (hu : 0 < u) (hk : k = (n + 500) / 1000)
    (hlower : (2 * k - 1) * u ≤ 2 * v) (hupper : 1000 * v < n * u + u) : roundDivUp v u = k := by
  have hbelow : 2 * (k * u) ≤ 2 * v + u := by
    cases k with
    | zero => omega
    | succ j =>
      rw [show 2 * (j + 1) - 1 = 2 * j + 1 by omega, Nat.add_mul, Nat.mul_assoc] at hlower
      rw [Nat.add_mul]
      omega
  have habove : 2 * v < 2 * (k * u) + u := by
    have hn : (n + 1) * u ≤ (1000 * k + 500) * u := Nat.mul_le_mul_right u (by omega)
    rw [Nat.add_mul, Nat.add_mul, Nat.mul_assoc] at hn
    omega
  refine Nat.div_eq_of_lt_le ?_ ?_
  · rw [Nat.mul_left_comm]
    omega
  · rw [Nat.mul_left_comm, Nat.add_mul, Nat.one_mul]
    omega

/-- A whole number of thousandths is rounded to whole ticks as if it had not been rounded before. -/
theorem wholeTicks_eq {m n : Nat} (hm : scaled m = n * unitsPerOne) (hn : n ≤ 2 ^ 53) :
    wholeTicks m = (n + 500) / 1000 := by
  rw [wholeTicks, hm]
  refine roundDivUp_of_bounds unitsPerOne_pos rfl ?_ (scaled_nearest_thousandth hn)
  refine half_le_scaled_nearest (by decide) (by omega) ?_
  calc (2 * ((n + 500) / 1000) - 1) * unitsPerOne * 1000
      = (2 * ((n + 500) / 1000) - 1) * 1000 * unitsPerOne := Nat.mul_right_comm _ _ _
    _ ≤ 2 * n * unitsPerOne := Nat.mul_le_mul_right _ (by omega)
    _ = 2 * (n * unitsPerOne) := Nat.mul_assoc _ _ _

/-- No time at all is one tick, even at a rate that is too large for a finite number. -/
theorem ticksOfMillis_zero (r : Nat) : ticksOfMillis 0 (ofNat r) = 1 := by
  by_cases hfinite : (ofNat r).isFinite = true
  · have hproduct : millisProduct 0 (ofNat r) = 0 := by
      have hzero : scaled (ofNat (0 : UInt64).toNat).magnitude = 0 := by decide +kernel
      rw [millisProduct, hzero, Nat.zero_mul, nearest_zero]
    have hlt : millisProduct 0 (ofNat r) < infinityBits := by
      rw [hproduct]
      decide
    have hticks := toNat_ticksOfMillis hfinite (magnitude_ofNat r).2 hlt
    rw [hproduct, wholeTicks_eq (n := 0) (by rw [scaled_zero, Nat.zero_mul]) (by decide)] at hticks
    exact UInt64.toNat_inj.mp hticks
  · have hinfinite : ofNat r = ofMagnitude false infinityBits := by
      rw [isFinite_iff, (magnitude_ofNat r).1, Nat.not_lt] at hfinite
      rw [ofNat, Nat.le_antisymm (nearest_le_infinityBits _ _) hfinite]
    rw [hinfinite]
    decide +kernel

/-- At a whole rate, a time whose product with the rate has at most fifty-three bits or is the next
power of two is rounded as the exact quotient is: a half up, and to one tick at least. -/
theorem ticksOfMillis_ofNat {ms : UInt64} {r : Nat} (hr : 1 ≤ r) (h : ms.toNat * r ≤ 2 ^ 53) :
    (ticksOfMillis ms (ofNat r)).toNat = max 1 ((ms.toNat * r + 500) / 1000) := by
  rcases Nat.eq_zero_or_pos ms.toNat with hzero | hpos
  · have hms : ms = 0 := UInt64.toNat_inj.mp hzero
    rw [hms, ticksOfMillis_zero, UInt64.toNat_zero, Nat.zero_mul]
    decide
  obtain ⟨htime, -⟩ := scaled_ofNat (Nat.le_trans (Nat.le_mul_of_pos_right _ hr) h)
  obtain ⟨hrate, hfinite⟩ := scaled_ofNat (Nat.le_trans (Nat.le_mul_of_pos_left _ hpos) h)
  obtain ⟨hwhole, hwholeFinite⟩ := scaled_ofNat h
  have hlt := isFinite_iff.mp hwholeFinite
  have hproduct : millisProduct ms (ofNat r) = (ofNat (ms.toNat * r)).magnitude := by
    have hnum : ms.toNat * unitsPerOne * (r * unitsPerOne) =
        scaled (ofNat (ms.toNat * r)).magnitude * unitsPerOne := by
      rw [hwhole]
      ac_rfl
    rw [millisProduct, htime, hrate, hnum, nearest_scaled _ unitsPerOne_pos,
      Nat.min_eq_left (Nat.le_of_lt hlt)]
  rw [toNat_ticksOfMillis hfinite (magnitude_ofNat r).2 (hproduct ▸ hlt), hproduct,
    wholeTicks_eq hwhole h]
  omega

/-- A time just below a half of a tick, with a product of fifty-three bits. -/
theorem ticksOfMillis_below_half :
    1 ≤ 7 ∧ (1286742750676357 : UInt64).toNat * 7 ≤ 2 ^ 53 ∧
      (ticksOfMillis 1286742750676357 (ofNat 7)).toNat = 9007199254734 := by
  have hr : 1 ≤ 7 := by decide
  have hroom : (1286742750676357 : UInt64).toNat * 7 ≤ 2 ^ 53 := by decide
  exact ⟨hr, hroom, (ticksOfMillis_ofNat hr hroom).trans (by decide)⟩

end CommandBridge
