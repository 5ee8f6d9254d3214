import CommandBridge.Binary64.Basic

/-!
# Rounded arithmetic

Products, quotients and conversions are computed exactly and then rounded once, to the nearest
number and on a tie to the one with the even pattern. The exact result is always a quotient of
two natural numbers in units of `2 ^ -1074`, so one rounding function (`nearest`) serves all of
them.

`nearest` chooses the shift from the size of the quotient and divides by the matching power of
two. A quotient that rounds up to the next power of two needs no special treatment: adding the
carry to the pattern moves it to the next exponent, and past the largest finite number the
pattern is cut off at infinity.
-/

namespace CommandBridge

/-- The quotient rounded to the nearest natural number, a tie to the even one. -/
def roundDivEven (num den : Nat) : Nat :=
  let q := num / den
  let r := num % den
  if 2 * r < den then q
  else if den < 2 * r then q + 1
  else q + q % 2

/-- The quotient rounded to the nearest natural number, a tie to the larger one. -/
def roundDivUp (num den : Nat) : Nat :=
  (2 * num + den) / (2 * den)

/-- A quotient without remainder is not changed by rounding. -/
theorem roundDivEven_mul_right (n den : Nat) (h : 0 < den) : roundDivEven (n * den) den = n := by
  simp [roundDivEven, Nat.mul_div_cancel n h, h]

namespace Binary64

/-- The magnitude nearest to `num / den` units of `2 ^ -1074`. -/
def nearest (num den : Nat) : Nat :=
  let s := (num / den).log2 - 52
  min (s * fractionCount + roundDivEven num (den <<< s)) infinityBits

/-- The number nearest to a natural number. -/
def ofNat (n : Nat) : Binary64 :=
  ofMagnitude false (nearest (n * unitsPerOne) 1)

/-- The rounded product. Zero times infinity is no number. -/
def mul (x y : Binary64) : Binary64 :=
  let negative := x.isNegative != y.isNegative
  if x.isNaN || y.isNaN then nan
  else if x.isInfinite || y.isInfinite then
    if x.isZero || y.isZero then nan else ofMagnitude negative infinityBits
  else
    ofMagnitude negative (nearest (scaled x.magnitude * scaled y.magnitude) unitsPerOne)

/-- The rounded quotient. Dividing a nonzero number by zero gives infinity; zero by zero and
infinity by infinity are no numbers. -/
def div (x y : Binary64) : Binary64 :=
  let negative := x.isNegative != y.isNegative
  if x.isNaN || y.isNaN then nan
  else if x.isInfinite then
    if y.isInfinite then nan else ofMagnitude negative infinityBits
  else if y.isInfinite then ofMagnitude negative 0
  else if y.isZero then
    if x.isZero then nan else ofMagnitude negative infinityBits
  else
    ofMagnitude negative (nearest (scaled x.magnitude * unitsPerOne) (scaled y.magnitude))

/-- The absolute value of a finite number rounded to a natural number, a half away from zero. -/
def roundAway (x : Binary64) : Nat :=
  roundDivUp (scaled x.magnitude) unitsPerOne

@[simp] theorem nearest_zero (den : Nat) : nearest 0 den = 0 := by
  by_cases h : den = 0 <;> simp [nearest, roundDivEven, h, Nat.pos_of_ne_zero]

end Binary64

end CommandBridge
