import CommandBridge.Binary64.Rounding

/-!
# The shortest decimal of a number

A float is written with the fewest digits that still read back as the same float; of all such
decimals, with the nearest one. This module finds those digits. How they are laid out on the line
is the business of `CommandBridge.Binary64.Layout`.

The reals that read back as a finite magnitude `m` form an interval around it: it ends halfway to
either neighbour, and the ends belong to it if and only if the pattern is even. Decimals with a
given number of digits form a grid. If any point of a grid lies in the interval, then so does one
of the two grid points next to the value itself, so it is enough to look at those two for one,
two, … seventeen digits; the first grid with a hit has the fewest digits.
-/

namespace CommandBridge

/-- A decimal number: `digits * 10 ^ exponent`. -/
structure Decimal where
  /-- The digits, read as one number. -/
  digits : Nat
  /-- The power of ten of the last digit. -/
  exponent : Int
  deriving DecidableEq, Repr

/-- The same number with one digit if it is written as a ten. The one-digit decimals between two
powers of ten end at the upper power, which needs one digit too. -/
def Decimal.carried (d : Decimal) : Decimal :=
  if d.digits = 10 then ⟨1, d.exponent + 1⟩ else d

/-- Which of two equally near decimals is taken. -/
inductive TieRule
  /-- The one whose last digit is even. -/
  | even
  | up
  deriving DecidableEq, Repr

/-- The power of ten of the first digit of the positive quotient `num / den`. -/
def leadingExponent (num den : Nat) : Int :=
  if den ≤ num then
    ((Nat.toDigits 10 (num / den)).length : Int) - 1
  else
    let k := (Nat.toDigits 10 (den / num)).length
    if den ≤ num * Nat.pow 10 (k - 1) then 1 - (k : Int) else -(k : Int)

namespace Binary64

/-- Whether twice the real `point / 2` units lies in the interval of the reals that read back as
the magnitude `m`. Everything is multiplied by `factor` to stay within natural numbers: `point`
already is, the ends are here. -/
def readsBack (m factor point : Nat) : Bool :=
  let low := (scaled (m - 1) + scaled m) * factor
  let high := (scaled m + scaled (m + 1)) * factor
  if m % 2 = 0 then low ≤ point && point ≤ high else low < point && point < high

/-- The decimal with last digit at `10 ^ exponent` that reads back as the magnitude `m` and is
nearest to it, if there is one. -/
def onGrid (tie : TieRule) (m : Nat) (exponent : Int) : Option Decimal :=
  let factor := Nat.pow 10 (-exponent).toNat
  let step := unitsPerOne * Nat.pow 10 exponent.toNat
  let below := scaled m * factor / step
  let rest := scaled m * factor % step
  let lower := readsBack m factor (2 * (below * step))
  let upper := readsBack m factor (2 * ((below + 1) * step))
  let takeLower :=
    if 2 * rest < step then true
    else if step < 2 * rest then false
    else match tie with
      | .even => below % 2 = 0
      | .up => false
  match lower, upper with
  | false, false => none
  | true, false => some ⟨below, exponent⟩
  | false, true => some ⟨below + 1, exponent⟩
  | true, true => some ⟨if takeLower then below else below + 1, exponent⟩

/-- The shortest decimal that reads back as the positive finite magnitude `m`. Seventeen digits
are always enough, so the search ends with a hit. -/
def shortest (tie : TieRule) (m : Nat) : Decimal :=
  let leading := leadingExponent (scaled m) unitsPerOne
  let hit := (List.range 17).findSome? fun (n : Nat) => onGrid tie m (leading - (n : Int))
  (hit.getD ⟨0, 0⟩).carried

end Binary64

end CommandBridge
