import CommandBridge.Text.Literal
import Mathlib.Data.List.Induction

/-!
# Numerals read back

The decimal numeral of a natural number consists of digits, it starts with a zero only if it is the
numeral of zero, and its digits stand for the number (`numeralValue_toDigits`). All three are
inductions on the number, which takes its last digit off: the numeral of `n` with at least two
digits is that of `n / 10` followed by one digit (`Nat.toDigits_of_base_le`).

Hexadecimal digits of a fixed width stand for the number too, if it fits
(`numeralValue_hexDigits`); they are defined by taking the last digit off. It does not matter in
which case the digits are drawn, so these lemmas are about any way to draw them.

A numeral read into a word is the word of its number if there is one (`numeralWord?_eq`): the
numbers on the way to it are no larger, so whatever has no room on the way has none at the end.
-/

namespace CommandBridge.Text

theorem digitValue?_digitChar {d : Nat} (h : d < 10) : digitValue? (Nat.digitChar d) = some d := by
  have hall : ∀ d < 10, digitValue? (Nat.digitChar d) = some d := by decide
  exact hall d h

theorem isDigitOf_digitChar {d : Nat} (h : d < 10) : isDigitOf 10 (Nat.digitChar d) = true := by
  rw [isDigitOf, digitValue?_digitChar h]
  exact decide_eq_true h

/-- The digits of a numeral stand for its number. -/
@[simp] theorem numeralValue_toDigits (n : Nat) : numeralValue 10 (Nat.toDigits 10 n) = n := by
  induction n using Nat.strongRecOn with
  | ind n ih =>
    by_cases hn : n < 10
    · rw [Nat.toDigits_of_lt_base hn]
      simp [numeralValue, digitValue?_digitChar hn]
    · rw [Nat.toDigits_of_base_le (by decide) (by omega), numeralValue_append_singleton,
        ih (n / 10) (by omega), digitValue?_digitChar (Nat.mod_lt n (by decide)), Option.getD_some]
      omega

/-- A numeral has nothing but digits. -/
theorem isDigitOf_of_mem_toDigits {n : Nat} {c : Char} (h : c ∈ Nat.toDigits 10 n) :
    isDigitOf 10 c = true := by
  induction n using Nat.strongRecOn with
  | ind n ih =>
    by_cases hn : n < 10
    · rw [Nat.toDigits_of_lt_base hn, List.mem_singleton] at h
      exact h ▸ isDigitOf_digitChar hn
    · rw [Nat.toDigits_of_base_le (by decide) (by omega), List.mem_append, List.mem_singleton] at h
      rcases h with h | h
      · exact ih (n / 10) (by omega) h
      · exact h ▸ isDigitOf_digitChar (Nat.mod_lt n (by decide))

/-- The numeral of a positive number does not start with a zero. -/
theorem head?_toDigits_ne_zero {n : Nat} (h : 0 < n) : (Nat.toDigits 10 n).head? ≠ some '0' := by
  induction n using Nat.strongRecOn with
  | ind n ih =>
    by_cases hn : n < 10
    · rw [Nat.toDigits_of_lt_base hn, List.head?_cons, ne_eq, Option.some.injEq,
        Nat.digitChar_eq_zero]
      omega
    · have hfirst := ih (n / 10) (by omega) (by omega)
      rw [Nat.toDigits_of_base_le (by decide) (by omega)]
      cases hdigits : Nat.toDigits 10 (n / 10) with
      | nil => exact absurd hdigits Nat.toDigits_ne_nil
      | cons c rest => rwa [hdigits] at hfirst

/-- A number times a power of ten has as many zeros behind its numeral. -/
theorem toDigits_mul_pow {n : Nat} (h : 0 < n) (k : Nat) :
    Nat.toDigits 10 (n * Nat.pow 10 k) = Nat.toDigits 10 n ++ List.replicate k '0' := by
  induction k with
  | zero => simp
  | succ k ih =>
    have hpos : 0 < n * Nat.pow 10 k := Nat.mul_pos h (Nat.pow_pos (by decide))
    have hsplit : n * Nat.pow 10 (k + 1) = 10 * (n * Nat.pow 10 k) + 0 := by
      rw [show Nat.pow 10 (k + 1) = Nat.pow 10 k * 10 from rfl]
      ac_rfl
    rw [hsplit, ← Nat.toDigits_append_toDigits (by decide) hpos (by decide), ih,
      Nat.toDigits_zero, List.replicate_succ', List.append_assoc]

theorem isDigitOf_iff {radix : Nat} {c : Char} :
    isDigitOf radix c = true ↔ ∃ d, digitValue? c = some d ∧ d < radix := by
  rw [isDigitOf]
  cases digitValue? c <;> simp

/-! ### Hexadecimal digits -/

theorem digitValue?_lowerHexDigit : ∀ d < 16, digitValue? (lowerHexDigit d) = some d := by
  decide

theorem digitValue?_upperHexDigit : ∀ d < 16, digitValue? (upperHexDigit d) = some d := by
  decide

section

variable {digit : Nat → Char} (hdigit : ∀ d < 16, digitValue? (digit d) = some d) {width n : Nat}

include hdigit

/-- A number below `16 ^ width` is written by its last `width` digits. -/
theorem numeralValue_hexDigits (h : n < Nat.pow 16 width) :
    numeralValue 16 (hexDigits digit width n) = n := by
  induction width generalizing n with
  | zero =>
    rw [show Nat.pow 16 0 = 1 from rfl] at h
    rw [hexDigits, numeralValue_nil]
    omega
  | succ width ih =>
    rw [show Nat.pow 16 (width + 1) = Nat.pow 16 width * 16 from rfl] at h
    rw [hexDigits, numeralValue_append_singleton, ih (Nat.div_lt_of_lt_mul (by omega)),
      hdigit _ (Nat.mod_lt n (by decide)), Option.getD_some]
    omega

theorem isDigitOf_of_mem_hexDigits {c : Char} (h : c ∈ hexDigits digit width n) :
    isDigitOf 16 c = true := by
  induction width generalizing n with
  | zero => exact absurd h List.not_mem_nil
  | succ width ih =>
    rw [hexDigits, List.mem_append, List.mem_singleton] at h
    rcases h with h | rfl
    · exact ih h
    · have hlt : n % 16 < 16 := Nat.mod_lt n (by decide)
      exact isDigitOf_iff.mpr ⟨_, hdigit _ hlt, hlt⟩

end

/-! ### Numerals in words -/

theorem word?_eq_some {n : Nat} {w : UInt32} : word? n = some w ↔ w.toNat = n := by
  rw [word?]
  split
  case isTrue h =>
    rw [Option.some.injEq, ← UInt32.toNat_inj, UInt32.toNat_ofNat_of_lt' h, eq_comm]
  case isFalse h =>
    refine iff_of_false nofun fun hw => h ?_
    rw [← hw]
    exact w.toNat_lt

theorem word?_eq_none {n : Nat} : word? n = none ↔ UInt32.size ≤ n := by
  rw [word?]
  split <;> simp <;> omega

/-- A further digit finds room exactly if the longer numeral does. -/
theorem pushDigit?_eq {radix d : Nat} {c : Char} (hc : digitValue? c = some d) (hd : d < radix)
    (n : UInt32) : pushDigit? radix n c = word? (n.toNat * radix + d) := by
  rw [pushDigit?, hc, Option.filter_some, if_pos (decide_eq_true hd), Option.bind_some]
  cases hshifted : word? (n.toNat * radix) with
  | some shifted => rw [Option.bind_some, word?_eq_some.mp hshifted]
  | none =>
    have hlarge : UInt32.size ≤ n.toNat * radix := word?_eq_none.mp hshifted
    rw [Option.bind_none, eq_comm, word?_eq_none]
    omega

/-- The word of a numeral is that of its number, if there is one. -/
theorem numeralWord?_eq {radix : Nat} {digits : List Char}
    (h : ∀ c ∈ digits, isDigitOf radix c = true) :
    numeralWord? radix digits = word? (numeralValue radix digits) := by
  induction digits using List.reverseRecOn with
  | nil => rfl
  | append_singleton digits c ih =>
    obtain ⟨d, hc, hd⟩ := isDigitOf_iff.mp (h c (by simp))
    rw [numeralWord?_append_singleton, numeralValue_append_singleton, hc, Option.getD_some,
      ih fun c hc => h c (List.mem_append_left _ hc)]
    cases hword : word? (numeralValue radix digits) with
    | some n => rw [Option.bind_some, pushDigit?_eq hc hd, word?_eq_some.mp hword]
    | none =>
      -- The digits in front have no room already, and a further digit makes their number no less.
      have hlarge : UInt32.size ≤ numeralValue radix digits := word?_eq_none.mp hword
      have hgrows : numeralValue radix digits ≤ numeralValue radix digits * radix :=
        Nat.le_mul_of_pos_right _ (Nat.zero_lt_of_lt hd)
      rw [Option.bind_none, eq_comm, word?_eq_none]
      omega

end CommandBridge.Text
