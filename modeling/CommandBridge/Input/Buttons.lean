import CommandBridge.Text.Blank

/-!
# Buttons

The eight buttons of a controller fit into one byte, one bit each, in the order of the
controller's shift register. Every byte is a set of buttons, so complement stays inside the type.

The set operations are bitwise; their laws are the laws of `UInt8`. Single buttons are known by
name, without regard to case or to blanks around the name.
-/

namespace CommandBridge

open Text

/-- A set of buttons. -/
structure Buttons where
  /-- One bit for each button. -/
  bits : UInt8
  deriving DecidableEq, Repr

namespace Buttons

/-- No button. -/
def none : Buttons := ⟨0⟩

/-- Every button. -/
def all : Buttons := ⟨255⟩

/-- The buttons of either set. -/
def union (a b : Buttons) : Buttons := ⟨a.bits ||| b.bits⟩

/-- The buttons of both sets. -/
def inter (a b : Buttons) : Buttons := ⟨a.bits &&& b.bits⟩

/-- The buttons of exactly one of the sets. -/
def symmDiff (a b : Buttons) : Buttons := ⟨a.bits ^^^ b.bits⟩

/-- The buttons not in the set. -/
def compl (a : Buttons) : Buttons := ⟨~~~a.bits⟩

/-- The buttons of the first set that are not in the second. -/
def diff (a b : Buttons) : Buttons := a.inter b.compl

/-- Whether every button of `b` is in `a`. -/
def contains (a b : Buttons) : Bool := a.inter b = b

/-- Whether the sets share a button. -/
def intersects (a b : Buttons) : Bool := a.inter b ≠ none

/-- Whether the set has no button. -/
def isEmpty (a : Buttons) : Bool := a = none

/-- Whether the set has every button. -/
def isAll (a : Buttons) : Bool := a = all

/-- The union of a list of sets. -/
def unionAll (l : List Buttons) : Buttons := l.foldr union none

@[simp] theorem unionAll_nil : unionAll [] = none := rfl

@[simp] theorem unionAll_cons (a : Buttons) (l : List Buttons) :
    unionAll (a :: l) = a.union (unionAll l) := rfl

@[simp] theorem union_none (a : Buttons) : a.union none = a := by simp [union, none]

@[simp] theorem none_union (a : Buttons) : none.union a = a := by simp [union, none]

theorem union_comm (a b : Buttons) : a.union b = b.union a := by
  simp [union, UInt8.or_comm]

theorem union_assoc (a b c : Buttons) : (a.union b).union c = a.union (b.union c) := by
  simp [union, UInt8.or_assoc]

@[simp] theorem union_self (a : Buttons) : a.union a = a := by simp [union]

@[simp] theorem compl_compl (a : Buttons) : a.compl.compl = a := by simp [compl]

/-- The buttons in bit order, with their names. -/
def named : List (String × Buttons) :=
  [("A", ⟨0x01⟩), ("B", ⟨0x02⟩), ("Select", ⟨0x04⟩), ("Start", ⟨0x08⟩),
   ("Up", ⟨0x10⟩), ("Down", ⟨0x20⟩), ("Left", ⟨0x40⟩), ("Right", ⟨0x80⟩)]

/-- A character with an ASCII capital made small; all other characters stay. -/
def lowerAscii (c : Char) : Char :=
  if 'A' ≤ c ∧ c ≤ 'Z' then Char.ofNat (c.toNat + 32) else c

/-- Whether two texts differ only in the case of ASCII letters. -/
def sameName (a b : List Char) : Bool := a.map lowerAscii = b.map lowerAscii

/-- The button with the given name. -/
def ofName? (name : String) : Option Buttons :=
  (named.find? fun entry => sameName entry.1.toList (trimmed name.toList)).map (·.2)

/-- The set of the buttons with the given names, or the first name that is unknown. -/
def ofNames : List String → Except String Buttons
  | [] => .ok none
  | name :: rest =>
    match ofName? name with
    | some b => (ofNames rest).map b.union
    | Option.none => .error name

/-- The names of the buttons in the set, in bit order. -/
def names (a : Buttons) : List String :=
  (named.filter fun entry => a.contains entry.2).map (·.1)

end Buttons

end CommandBridge
