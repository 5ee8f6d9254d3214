import CommandBridge.Text.Blank
import CommandBridge.Text.Numeral

/-!
# Addresses

A machine has 65536 bytes, each with an address of sixteen bits. An address is written as `0x` and
four upper-case hexadecimal digits; `Address.read` accepts that form and the looser ones people
type.

Reading follows the shape of the text after trimming:

* `0x` or `0X` and hexadecimal digits;
* hexadecimal digits with at least one letter among them;
* decimal digits.

The shape is settled by the text alone (`Shape.split`, `Shape.isWellFormed`). Only then is the
number computed, in a word of thirty-two bits, and narrowed to an address (`Shape.address?`). There
may be no room for it in either, and both times the text is out of range; a text without a shape is
malformed, however long it is.
-/

namespace CommandBridge

open Text

/-- The address of one byte. -/
structure Address where
  val : UInt16
  deriving DecidableEq, Repr

namespace Address

/-- The number of addresses. -/
def spaceSize : Nat := 0x10000

/-- The address as a natural number. -/
def toNat (a : Address) : Nat := a.val.toNat

/-- The address with the given number, of which only the low sixteen bits count. -/
def ofNat (n : Nat) : Address := ⟨UInt16.ofNat n⟩

theorem toNat_lt (a : Address) : a.toNat < spaceSize := a.val.toNat_lt

/-- The address as a position in the address space. -/
def toFin (a : Address) : Fin spaceSize := ⟨a.toNat, a.toNat_lt⟩

@[simp] theorem val_toFin (a : Address) : a.toFin.val = a.toNat := rfl

@[simp] theorem toNat_ofNat (n : Nat) : (ofNat n).toNat = n % spaceSize := by
  simp [ofNat, toNat, spaceSize]

/-- Within the address space no bits are lost. -/
theorem toNat_ofNat_of_lt {n : Nat} (h : n < spaceSize) : (ofNat n).toNat = n := by
  rw [toNat_ofNat, Nat.mod_eq_of_lt h]

@[simp] theorem ofNat_toNat (a : Address) : ofNat a.toNat = a := by
  simp [ofNat, toNat]

/-- Addresses are equal if their numbers are. -/
theorem ext_toNat {a b : Address} (h : a.toNat = b.toNat) : a = b := by
  rw [← ofNat_toNat a, h, ofNat_toNat]

/-- The written form: `0x` and four upper-case hexadecimal digits. -/
def text (a : Address) : String :=
  String.ofList ('0' :: 'x' :: hexDigits upperHexDigit 4 a.toNat)

/-- The addresses of a range of `len` bytes, in order. -/
def range (start : Address) (len : Nat) : List Address :=
  (List.range len).map fun offset => ofNat (start.toNat + offset)

@[simp] theorem length_range (start : Address) (len : Nat) : (range start len).length = len := by
  simp [range]

/-- The written shape of a number: its radix and its digits. -/
structure Shape where
  /-- Ten or sixteen. -/
  radix : Nat
  /-- The digits, without the `0x` in front. -/
  digits : List Char
  deriving DecidableEq, Repr

/-- Whether a character is one of the letters that mark a number as hexadecimal. -/
def isHexLetter (c : Char) : Bool :=
  ('a' ≤ c && c ≤ 'f') || ('A' ≤ c && c ≤ 'F')

/-- The radix and the supposed digits of a trimmed text. -/
def Shape.split : List Char → Shape
  | '0' :: 'x' :: rest => ⟨16, rest⟩
  | '0' :: 'X' :: rest => ⟨16, rest⟩
  | cs => ⟨if cs.any isHexLetter then 16 else 10, cs⟩

/-- Whether there are digits, and nothing else. -/
def Shape.isWellFormed (s : Shape) : Bool :=
  !s.digits.isEmpty && s.digits.all (isDigitOf s.radix)

/-- The number that a well-formed shape stands for. -/
def Shape.value (s : Shape) : Nat := numeralValue s.radix s.digits

/-- The address that a well-formed shape stands for, if there is one. -/
def Shape.address? (s : Shape) : Option Address :=
  (numeralWord? s.radix s.digits).bind fun n =>
    if n.toNat < spaceSize then some (ofNat n.toNat) else none

/-- Why a text is no address. -/
inductive ReadError
  /-- Nothing but blanks. -/
  | empty
  /-- The trimmed text has none of the accepted shapes. -/
  | malformed (trimmed : String)
  /-- The trimmed text stands for a number beyond the address space. -/
  | outOfRange (trimmed : String)
  deriving DecidableEq, Repr

/-- Reads an address. -/
def read (text : String) : Except ReadError Address :=
  let cs := trimmed text.toList
  let shape := Shape.split cs
  if cs.isEmpty then .error .empty
  else if !shape.isWellFormed then .error (.malformed (String.ofList cs))
  else match shape.address? with
    | some a => .ok a
    | none => .error (.outOfRange (String.ofList cs))

end Address

end CommandBridge
