import CommandBridge.Binary64.Rounding
import CommandBridge.Text.Literal

/-!
# Reading a number from a literal

A literal is read in two steps. Its digits are gathered into a 64-bit significand and a power of
ten (`gather`); then the significand, rounded to a float, is multiplied or divided by that power,
rounded once more (`scaleByTen`). Literals of up to fifteen digits with a power of ten up to
twenty-two come out correctly rounded; longer ones may be off by one unit in the last place, and
that is part of the format's contract.

Rules of the gathering:

* a digit in front of the point that no longer fits into the significand, and each one after it,
  only raises the power of ten;
* a digit behind the point that no longer fits ends the gathering: it and all later ones are
  dropped.

A literal whose value is too large for a finite number is refused; one that is too small for a
positive number reads as zero.
-/

namespace CommandBridge

open Text

/-- A significand with a power of ten. -/
structure ScaledDigits where
  /-- The digits gathered so far, below `2 ^ 64`. -/
  significand : Nat
  /-- The power of ten of the last gathered digit. -/
  exponent : Int
  deriving DecidableEq, Repr

namespace ScaledDigits

/-- The significand with one digit more, if that still fits into 64 bits. -/
def push? (significand : Nat) (c : Char) : Option Nat :=
  let next := significand * 10 + (digitValue? c).getD 0
  if next < UInt64.size then some next else none

/-- Gathers the digits in front of the point. -/
def gatherWhole (significand : Nat) : List Char → ScaledDigits
  | [] => ⟨significand, 0⟩
  | c :: rest =>
    match push? significand c with
    | some next => gatherWhole next rest
    | none => ⟨significand, (rest.length : Int) + 1⟩

/-- Gathers the digits behind the point. -/
def gatherFraction (s : ScaledDigits) : List Char → ScaledDigits
  | [] => s
  | c :: rest =>
    match push? s.significand c with
    | some next => gatherFraction ⟨next, s.exponent - 1⟩ rest
    | none => s

/-- Gathers the digits of a literal and its written power of ten. -/
def ofLiteral (l : Literal) : ScaledDigits :=
  let s := gatherFraction (gatherWhole 0 l.whole) l.fraction
  ⟨s.significand, s.exponent + l.exponent.getD 0⟩

end ScaledDigits

namespace Binary64

/-- The float nearest to a power of ten. -/
def powerOfTen (n : Nat) : Binary64 := ofNat (Nat.pow 10 n)

/-- A nonnegative number times a power of ten, rounded at each step: powers up to `10 ^ 308` take
one step, smaller ones are reached by dividing by `10 ^ 308` first. `none` if the result is not
finite. -/
def scaleByTen (x : Binary64) (exponent : Int) : Option Binary64 :=
  if -308 ≤ exponent then
    if exponent < 0 then some (x.div (powerOfTen exponent.natAbs))
    else if exponent ≤ 308 then
      let y := x.mul (powerOfTen exponent.natAbs)
      if y.isFinite then some y else none
    else if x.isZero then some x else none
  else if x.isZero then some x
  else scaleByTen (x.div (powerOfTen 308)) (exponent + 308)
termination_by exponent.natAbs
decreasing_by omega

/-- The number written by a literal, if it is finite. -/
def ofLiteral? (l : Literal) : Option Binary64 :=
  let s := ScaledDigits.ofLiteral l
  (scaleByTen (ofNat s.significand) s.exponent).map fun x =>
    if l.negative then x.negate else x

end Binary64

end CommandBridge
