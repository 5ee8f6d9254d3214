import CommandBridge.Binary64.Shortest
import CommandBridge.Text.Literal

/-!
# Layouts of numbers

A layout says how the digits of a number are put on the line: which numbers are written
positionally and which with a power of ten, and what stands behind the point of a whole number.
It is one record, chosen by the place that writes the number; the digits themselves are always
the shortest ones that read back.

The layouts the bridge uses are `Layout.message`, for numbers inside messages, and
`Layout.document`, for numbers in configuration documents.
-/

namespace CommandBridge

open Text

/-- How a number is written. -/
structure Layout where
  /-- The choice between two equally near shortest decimals. -/
  tie : TieRule
  /-- Whether a number is written positionally if its point stands behind its `k`-th digit
  (a `k` of zero or less counts zeros behind the point). -/
  positional : Int → Bool
  /-- What is written behind the point of a whole number. -/
  wholeFraction : List Char

namespace Layout

/-- Inside a message every number is written positionally, and a whole number without a point. -/
def message : Layout := ⟨.up, fun _ => true, []⟩

/-- In a document numbers from `0.00001` to below `10 ^ 16` are written positionally and every
positional number has a point, so that it reads as a float. Others are written with a power of
ten, as `1e-6` and `1.5e+16`. -/
def document : Layout := ⟨.even, fun k => -5 < k && k ≤ 16, ['0']⟩

/-- The literal of a positive decimal. -/
def literal (layout : Layout) (negative : Bool) (d : Decimal) : Literal :=
  let digits := Nat.toDigits 10 d.digits
  let point : Int := (digits.length : Int) + d.exponent
  if layout.positional point then
    if 0 ≤ d.exponent then
      ⟨negative, digits ++ List.replicate d.exponent.toNat '0', layout.wholeFraction, none⟩
    else if 0 < point then
      ⟨negative, digits.take point.toNat, digits.drop point.toNat, none⟩
    else
      ⟨negative, ['0'], List.replicate (-point).toNat '0' ++ digits, none⟩
  else
    ⟨negative, digits.take 1, digits.drop 1, some (point - 1)⟩

/-- The literal of a finite number. Both zeros keep their sign. -/
def write (layout : Layout) (x : Binary64) : Literal :=
  if x.isZero then ⟨x.isNegative, ['0'], layout.wholeFraction, none⟩
  else layout.literal x.isNegative (Binary64.shortest layout.tie x.magnitude)

end Layout

/-- The text of a number inside a message. -/
def Binary64.text (x : Binary64) : String :=
  if x.isNaN then "NaN"
  else if x.isInfinite then (if x.isNegative then "-inf" else "inf")
  else (Layout.message.write x).text

end CommandBridge
