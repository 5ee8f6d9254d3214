import CommandBridge.Text.Numeral

/-!
# Decimal literals

A decimal literal is the written form of a number before anybody has decided what kind of number
it is: a sign, the digits in front of the point, the digits behind it and a power of ten. The
reader of documents produces literals, the layouts of floating-point numbers produce literals,
and only the place that needs a number turns one into a natural number or a float.

Digits are kept as written, so leading zeros behind the point and the length of a numeral, which
both matter when a literal is rounded, are not lost.
-/

namespace CommandBridge.Text

/-- A decimal literal: `whole.fraction * 10 ^ exponent`, negated if `negative`. -/
structure Literal where
  /-- Whether a minus sign is in front. -/
  negative : Bool
  /-- The digits in front of the point. -/
  whole : List Char
  /-- The digits behind the point; empty if there is no point. -/
  fraction : List Char
  /-- The power of ten, if one is written. -/
  exponent : Option Int
  deriving DecidableEq, Repr

namespace Literal

/-- The literal of a natural number. -/
def ofNat (n : Nat) : Literal :=
  ⟨false, Nat.toDigits 10 n, [], none⟩

/-- Whether the literal has neither a point nor a power of ten. -/
def isInteger (l : Literal) : Bool :=
  l.fraction.isEmpty && l.exponent.isNone

/-- The natural number written by a literal without sign, point and power of ten. A minus sign
excludes zero too: `-0` writes no natural number. -/
def toNat? (l : Literal) : Option Nat :=
  if l.isInteger && !l.negative then some (numeralValue 10 l.whole) else none

/-- A power of ten: a lower-case `e`, a sign in any case, and the digits without padding. -/
def exponentChars (e : Int) : List Char :=
  'e' :: (if e < 0 then '-' else '+') :: Nat.toDigits 10 e.natAbs

/-- The characters of a literal. -/
def chars (l : Literal) : List Char :=
  (if l.negative then ['-'] else []) ++ l.whole ++
    (if l.fraction.isEmpty then [] else '.' :: l.fraction) ++
    (match l.exponent with
      | none => []
      | some e => exponentChars e)

def text (l : Literal) : String :=
  String.ofList l.chars

@[simp] theorem isInteger_ofNat (n : Nat) : (ofNat n).isInteger = true := rfl

@[simp] theorem chars_ofNat (n : Nat) : (ofNat n).chars = Nat.toDigits 10 n := by
  simp [chars, ofNat]

end Literal

end CommandBridge.Text
