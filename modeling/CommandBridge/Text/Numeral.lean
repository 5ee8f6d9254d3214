/-!
# Numerals

Digits of a radix up to sixteen, the number a list of digits stands for, and the two written
forms the bridge uses: plain decimal, and hexadecimal padded to a fixed width.

Digits are read in two ways. `numeralValue` is exact: a list of digits of any length stands for a
natural number. `numeralWord?` keeps the number in a word of thirty-two bits and gives up as soon as
there is no room for the next step.
-/

namespace CommandBridge.Text

/-- The value of a hexadecimal digit in either case. -/
def digitValue? (c : Char) : Option Nat :=
  if '0' ≤ c ∧ c ≤ '9' then some (c.toNat - '0'.toNat)
  else if 'a' ≤ c ∧ c ≤ 'f' then some (c.toNat - 'a'.toNat + 10)
  else if 'A' ≤ c ∧ c ≤ 'F' then some (c.toNat - 'A'.toNat + 10)
  else none

/-- Whether `c` is a digit of the given radix (at most sixteen). -/
def isDigitOf (radix : Nat) (c : Char) : Bool :=
  match digitValue? c with
  | some d => d < radix
  | none => false

/-- The number written by a list of digits, most significant first. Characters that are not
digits count as zero; callers check them first. -/
def numeralValue (radix : Nat) (digits : List Char) : Nat :=
  digits.foldl (fun n c => n * radix + (digitValue? c).getD 0) 0

@[simp] theorem numeralValue_nil (radix : Nat) : numeralValue radix [] = 0 := rfl

/-- A further digit multiplies by the radix and adds its value. -/
@[simp] theorem numeralValue_append_singleton (radix : Nat) (digits : List Char) (c : Char) :
    numeralValue radix (digits ++ [c]) =
      numeralValue radix digits * radix + (digitValue? c).getD 0 := by
  simp [numeralValue]

/-- The word of thirty-two bits with the given value, if there is one. -/
def word? (n : Nat) : Option UInt32 :=
  if n < UInt32.size then some (UInt32.ofNat n) else none

/-- A number with one digit more. The product with the radix and the sum with the digit both have
to be words. -/
def pushDigit? (radix : Nat) (n : UInt32) (c : Char) : Option UInt32 :=
  ((digitValue? c).filter (· < radix)).bind fun d =>
    (word? (n.toNat * radix)).bind fun shifted => word? (shifted.toNat + d)

/-- The number written by a list of digits, most significant first, if it and all numbers on the
way to it are words. -/
def numeralWord? (radix : Nat) (digits : List Char) : Option UInt32 :=
  digits.foldlM (pushDigit? radix) 0

@[simp] theorem numeralWord?_nil (radix : Nat) : numeralWord? radix [] = some 0 := rfl

@[simp] theorem numeralWord?_append_singleton (radix : Nat) (digits : List Char) (c : Char) :
    numeralWord? radix (digits ++ [c]) =
      (numeralWord? radix digits).bind fun n => pushDigit? radix n c := by
  simp [numeralWord?]

/-- The decimal numeral of a natural number, without leading zeros. -/
def decimal (n : Nat) : String :=
  String.ofList (Nat.toDigits 10 n)

/-- The decimal numeral of an integer, with a minus sign if it is negative. -/
def signedDecimal : Int → String
  | .ofNat n => decimal n
  | .negSucc n => "-" ++ decimal (n + 1)

/-- The upper-case hexadecimal digit of a number below sixteen. -/
def upperHexDigit (d : Nat) : Char :=
  if d < 10 then Char.ofNat (d + '0'.toNat) else Char.ofNat (d - 10 + 'A'.toNat)

/-- The lower-case hexadecimal digit of a number below sixteen. -/
def lowerHexDigit (d : Nat) : Char :=
  if d < 10 then Char.ofNat (d + '0'.toNat) else Char.ofNat (d - 10 + 'a'.toNat)

/-- The last `width` hexadecimal digits of `n`, each drawn by `digit`. -/
def hexDigits (digit : Nat → Char) : (width n : Nat) → List Char
  | 0, _ => []
  | width + 1, n => hexDigits digit width (n / 16) ++ [digit (n % 16)]

@[simp] theorem length_hexDigits (digit : Nat → Char) (width n : Nat) :
    (hexDigits digit width n).length = width := by
  induction width generalizing n with
  | zero => rfl
  | succ width ih => simp [hexDigits, ih]

end CommandBridge.Text
