/-!
# Blank characters and trimming

People and request layers pad what they type. This module fixes which characters count as
padding and how it is removed from both ends of a text.

* `isBlank` is the Unicode property *White_Space*, written out as its ranges: no property of
  `Char` in the core library covers the characters above ASCII.
* `trimmed` removes the longest blank stretch at either end and nothing in between.
-/

namespace CommandBridge.Text

/-- Whether a character has the Unicode property White_Space. -/
def isBlank (c : Char) : Bool :=
  let n := c.toNat
  (0x09 ≤ n && n ≤ 0x0D) || n == 0x20 || n == 0x85 || n == 0xA0 || n == 0x1680 ||
    (0x2000 ≤ n && n ≤ 0x200A) || n == 0x2028 || n == 0x2029 || n == 0x202F ||
    n == 0x205F || n == 0x3000

/-- The characters left after the blanks at both ends are gone. -/
def trimmed (cs : List Char) : List Char :=
  ((cs.dropWhile isBlank).reverse.dropWhile isBlank).reverse

@[simp] theorem trimmed_nil : trimmed [] = [] := rfl

/-- A blank in front does not matter. -/
@[simp] theorem trimmed_cons_of_isBlank {c : Char} {cs : List Char} (h : isBlank c = true) :
    trimmed (c :: cs) = trimmed cs := by
  simp [trimmed, h]

end CommandBridge.Text
