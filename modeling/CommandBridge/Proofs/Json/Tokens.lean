import CommandBridge.Json.Reader
import CommandBridge.Json.Writer
import CommandBridge.Proofs.Text.Numerals

/-!
# Numbers and strings read back

What the writer makes of a number or a string is scanned back to that number or string, whatever
follows a string (`stringBody_writeString`), and for a number if what follows cannot be taken for
more of it (`scanNumber_chars`). The scanner of numbers takes the longest literal, so the last
condition is needed; after a value of a document it always holds.

Literals are scanned back only if they are written as the format wants it, which is
`Literal.WellFormed`. Nothing is asked of the text of a string.
-/

namespace CommandBridge

open Text

/-- Literals that a document may contain. -/
structure Text.Literal.WellFormed (l : Literal) : Prop where
  /-- There are digits in front of the point. -/
  nonempty : l.whole ≠ []
  /-- Only a single zero starts with a zero. -/
  minimal : l.whole = ['0'] ∨ l.whole.head? ≠ some '0'
  whole : ∀ c ∈ l.whole, isDigitOf 10 c = true
  fraction : ∀ c ∈ l.fraction, isDigitOf 10 c = true

/-- The numeral of a natural number may stand in front of a point. -/
theorem Text.Literal.wellFormed_toDigits {negative : Bool} {n : Nat} {fraction : List Char}
    {exponent : Option Int} (h : ∀ c ∈ fraction, isDigitOf 10 c = true) :
    (⟨negative, Nat.toDigits 10 n, fraction, exponent⟩ : Literal).WellFormed := by
  refine ⟨Nat.toDigits_ne_nil, ?_, fun _ => isDigitOf_of_mem_toDigits, h⟩
  rcases Nat.eq_zero_or_pos n with rfl | hpos
  · exact .inl (Nat.toDigits_zero 10)
  · exact .inr (head?_toDigits_ne_zero hpos)

namespace Json

/-! ### Numbers -/

/-- Whether the first character of the input, if there is one, is no digit. -/
def StartsNoDigit (cs : List Char) : Prop := ∀ c ∈ cs.head?, isDigitOf 10 c = false

/-- Whether the input cannot be taken for more of a number in front of it. -/
def EndsNumber (cs : List Char) : Prop :=
  ∀ c ∈ cs.head?, isDigitOf 10 c = false ∧ c ≠ '.' ∧ c ≠ 'e' ∧ c ≠ 'E'

theorem EndsNumber.startsNoDigit {cs : List Char} (h : EndsNumber cs) : StartsNoDigit cs :=
  fun c hc => (h c hc).1

theorem startsNoDigit_cons {c : Char} {cs : List Char} (h : isDigitOf 10 c = false) :
    StartsNoDigit (c :: cs) := by
  intro d hd
  cases hd
  exact h

theorem someDigits_append {digits rest : List Char} (hne : digits ≠ [])
    (hdigits : ∀ c ∈ digits, isDigitOf 10 c = true) (hrest : StartsNoDigit rest) :
    someDigits (digits ++ rest) = some (digits, rest) := by
  have htake : rest.takeWhile (isDigitOf 10) = [] ∧ rest.dropWhile (isDigitOf 10) = rest := by
    cases rest with
    | nil => exact ⟨rfl, rfl⟩
    | cons c rest =>
      have hc : isDigitOf 10 c = false := hrest c rfl
      simp [hc]
  rw [someDigits, List.takeWhile_append_of_pos hdigits, List.dropWhile_append_of_pos hdigits,
    htake.1, htake.2, List.append_nil]
  simp [hne]

theorem wholePart_append {l : Literal} (h : l.WellFormed) {rest : List Char}
    (hrest : StartsNoDigit rest) : wholePart (l.whole ++ rest) = some (l.whole, rest) := by
  rcases h.minimal with hzero | hhead
  · rw [hzero]
    rfl
  · have hdigits := someDigits_append h.nonempty h.whole hrest
    unfold wholePart
    split
    case h_1 rest' heq =>
      cases hwhole : l.whole with
      | nil => exact absurd hwhole h.nonempty
      | cons d ds =>
        rw [hwhole] at heq hhead
        cases heq
        exact absurd rfl hhead
    case h_2 => exact hdigits

/-- The characters of the digits behind a point. -/
def fractionText (digits : List Char) : List Char := if digits.isEmpty then [] else '.' :: digits

/-- The characters of a power of ten. -/
def exponentText (e : Option Int) : List Char := e.elim [] Literal.exponentChars

theorem chars_eq (l : Literal) :
    l.chars = (if l.negative then ['-'] else []) ++
      (l.whole ++ (fractionText l.fraction ++ exponentText l.exponent)) := by
  cases hexp : l.exponent <;> simp [Literal.chars, fractionText, exponentText, hexp]

theorem fractionPart_append {digits rest : List Char}
    (hdigits : ∀ c ∈ digits, isDigitOf 10 c = true) (hrest : StartsNoDigit rest)
    (hpoint : rest.head? ≠ some '.') :
    fractionPart (fractionText digits ++ rest) = some (digits, rest) := by
  by_cases hempty : digits = []
  · rw [hempty, fractionText, if_pos List.isEmpty_nil, List.nil_append]
    unfold fractionPart
    split
    case h_1 => exact absurd rfl hpoint
    case h_2 => rfl
  · rw [fractionText, if_neg (by simp [hempty]), List.cons_append]
    exact someDigits_append hempty hdigits hrest

theorem exponentPart_exponentChars (e : Int) {rest : List Char} (hrest : StartsNoDigit rest) :
    exponentPart (Literal.exponentChars e ++ rest) = some (some e, rest) := by
  have hdigits : someDigits (Nat.toDigits 10 e.natAbs ++ rest) =
      some (Nat.toDigits 10 e.natAbs, rest) :=
    someDigits_append Nat.toDigits_ne_nil (fun _ => isDigitOf_of_mem_toDigits) hrest
  by_cases he : e < 0
  · have habs : -(e.natAbs : Int) = e := by omega
    simp only [Literal.exponentChars, he, ↓reduceIte, List.cons_append, exponentPart,
      exponentValue, hdigits, Option.map_some, numeralValue_toDigits, habs]
  · have habs : (e.natAbs : Int) = e := by omega
    simp only [Literal.exponentChars, he, ↓reduceIte, List.cons_append, exponentPart,
      exponentValue, hdigits, Option.map_some, numeralValue_toDigits, habs]

theorem exponentPart_append (e : Option Int) {rest : List Char} (hrest : EndsNumber rest) :
    exponentPart (exponentText e ++ rest) = some (e, rest) := by
  cases e with
  | none =>
    rw [exponentText, Option.elim_none, List.nil_append]
    unfold exponentPart
    split
    case h_1 => exact absurd rfl (hrest _ rfl).2.2.1
    case h_2 => exact absurd rfl (hrest _ rfl).2.2.2
    case h_3 => rfl
  | some e => exact exponentPart_exponentChars e hrest.startsNoDigit

/-- A power of ten starts with neither a digit nor a point. -/
theorem exponentText_append (e : Option Int) {rest : List Char} (hrest : EndsNumber rest) :
    StartsNoDigit (exponentText e ++ rest) ∧ (exponentText e ++ rest).head? ≠ some '.' := by
  cases e with
  | none => exact ⟨hrest.startsNoDigit, fun h => (hrest _ h).2.1 rfl⟩
  | some e => exact ⟨startsNoDigit_cons (by decide), by simp [exponentText, Literal.exponentChars]⟩

/-- The digits behind a point start with the point. -/
theorem fractionText_append (digits : List Char) {rest : List Char} (hrest : StartsNoDigit rest) :
    StartsNoDigit (fractionText digits ++ rest) := by
  rw [fractionText]
  split
  · exact hrest
  · exact startsNoDigit_cons (by decide)

theorem unsignedNumber_append {l : Literal} (h : l.WellFormed) {rest : List Char}
    (hrest : EndsNumber rest) :
    unsignedNumber l.negative
        (l.whole ++ (fractionText l.fraction ++ (exponentText l.exponent ++ rest))) =
      some (l, rest) := by
  obtain ⟨hexponent, hpoint⟩ := exponentText_append l.exponent hrest
  rw [unsignedNumber, wholePart_append h (fractionText_append _ hexponent), Option.bind_eq_bind,
    Option.bind_some]
  simp only [fractionPart_append h.fraction hexponent hpoint, exponentPart_append _ hrest,
    Option.bind_eq_bind, Option.bind_some]

/-- A well-formed literal is scanned back. -/
theorem scanNumber_chars {l : Literal} (h : l.WellFormed) {rest : List Char}
    (hrest : EndsNumber rest) : scanNumber (l.chars ++ rest) = some (l, rest) := by
  have hunsigned := unsignedNumber_append h hrest
  rw [chars_eq, List.append_assoc, List.append_assoc, List.append_assoc]
  cases hnegative : l.negative with
  | true =>
    rw [hnegative] at hunsigned
    exact hunsigned
  | false =>
    rw [hnegative] at hunsigned
    rw [if_neg Bool.false_ne_true, List.nil_append]
    unfold scanNumber
    split
    case h_1 rest' heq =>
      -- The first character is a digit.
      cases hwhole : l.whole with
      | nil => exact absurd hwhole h.nonempty
      | cons d ds =>
        rw [hwhole] at heq
        cases heq
        exact absurd (h.whole '-' (by rw [hwhole]; exact List.mem_cons_self)) (by decide)
    case h_2 => exact hunsigned

/-! ### Strings -/

theorem hexUnit?_of_hexDigits {n : Nat} (h : n < 0x10000) {a b c d : Char}
    (hdigits : hexDigits lowerHexDigit 4 n = [a, b, c, d]) : hexUnit? a b c d = some n := by
  have hall : [a, b, c, d].all (isDigitOf 16) = true := by
    rw [← hdigits, List.all_eq_true]
    exact fun _ => isDigitOf_of_mem_hexDigits digitValue?_lowerHexDigit
  rw [hexUnit?, if_pos hall, ← hdigits, numeralValue_hexDigits digitValue?_lowerHexDigit (by exact h)]

/-- The three ways to write a character: escaped by a letter, escaped by its code, or as it is. -/
theorem writeChar_cases (c : Char) :
    (∃ e, writeChar c = ['\\', e] ∧ escaped? e = some c) ∨
      (writeChar c = '\\' :: 'u' :: hexDigits lowerHexDigit 4 c.toNat ∧ c.toNat < 0x20) ∨
      (writeChar c = [c] ∧ c ≠ '"' ∧ c ≠ '\\' ∧ 0x20 ≤ c.toNat) := by
  by_cases hletter : c ∈ ['"', '\\', '\x08', '\x0c', '\n', '\r', '\t']
  · left
    simp only [List.mem_cons, List.not_mem_nil, or_false] at hletter
    rcases hletter with rfl | rfl | rfl | rfl | rfl | rfl | rfl <;> exact ⟨_, rfl, rfl⟩
  · right
    simp only [List.mem_cons, List.not_mem_nil, or_false, not_or] at hletter
    obtain ⟨hquote, hback, hb, hf, hn, hr, ht⟩ := hletter
    by_cases hcontrol : c.toNat < 0x20
    · exact .inl ⟨by simp [writeChar, hquote, hback, hb, hf, hn, hr, ht, hcontrol], hcontrol⟩
    · refine .inr ⟨?_, hquote, hback, Nat.le_of_not_lt hcontrol⟩
      simp [writeChar, hquote, hback, hb, hf, hn, hr, ht, hcontrol]

/-- A written character is scanned back as its code point. -/
theorem scanString_writeChar (c : Char) (rest : List Char) :
    scanString (writeChar c ++ rest) =
      (scanString rest).map fun scanned => (c.toNat :: scanned.1, scanned.2) := by
  rcases writeChar_cases c with ⟨e, hwrite, hescaped⟩ | ⟨hwrite, hcontrol⟩ |
    ⟨hwrite, hquote, hback, hle⟩
  · have hunit : e ≠ 'u' := by
      rintro rfl
      cases hescaped
    rw [hwrite]
    simp only [List.cons_append, List.nil_append]
    rw [scanString]
    · rw [hescaped]
      cases scanString rest <;> rfl
    · intros
      exact absurd ‹_› hunit
  · obtain ⟨a, b, d, f, hdigits⟩ : ∃ a b d f, hexDigits lowerHexDigit 4 c.toNat = [a, b, d, f] :=
      ⟨_, _, _, _, rfl⟩
    rw [hwrite, hdigits]
    simp only [List.cons_append, List.nil_append, scanString,
      hexUnit?_of_hexDigits (Nat.lt_trans hcontrol (by decide)) hdigits]
    cases scanString rest <;> rfl
  · rw [hwrite]
    simp only [List.cons_append, List.nil_append]
    rw [scanString]
    · rw [if_neg (Nat.not_lt_of_le hle)]
      cases scanString rest <;> rfl
    · exact hquote
    · intros
      exact absurd ‹_› hback
    · intros
      exact absurd ‹_› hback

/-- A unit that is no half stands for a character of its own. -/
theorem joinUnits_cons {u : Nat} {units : List Nat} (hhigh : isHighHalf u = false)
    (hlow : isLowHalf u = false) :
    joinUnits (u :: units) = (joinUnits units).map (Char.ofNat u :: ·) := by
  cases units <;> simp [joinUnits, hhigh, hlow]

/-- No character is half of a surrogate pair, so characters are joined to themselves. -/
theorem joinUnits_toNat (cs : List Char) : joinUnits (cs.map Char.toNat) = some cs := by
  induction cs with
  | nil => rfl
  | cons c cs ih =>
    have hvalid : c.toNat < 0xD800 ∨ 0xDFFF < c.toNat ∧ c.toNat < 0x110000 := c.valid
    have hhigh : isHighHalf c.toNat = false := by
      simp only [isHighHalf, Bool.and_eq_false_iff, decide_eq_false_iff_not]
      omega
    have hlow : isLowHalf c.toNat = false := by
      simp only [isLowHalf, Bool.and_eq_false_iff, decide_eq_false_iff_not]
      omega
    rw [List.map_cons, joinUnits_cons hhigh hlow, ih, Option.map_some, Char.ofNat_toNat]

/-- A written string is scanned back after its opening quote. -/
theorem stringBody_writeString (s : String) (rest : List Char) :
    stringBody ((s.toList.flatMap writeChar ++ ['"']) ++ rest) = some (some s, rest) := by
  have hscan : ∀ cs : List Char, scanString ((cs.flatMap writeChar ++ ['"']) ++ rest) =
      some (cs.map Char.toNat, rest) := by
    intro cs
    induction cs with
    | nil => rfl
    | cons c cs ih =>
      rw [List.flatMap_cons, List.append_assoc, List.append_assoc, scanString_writeChar,
        ← List.append_assoc, ih]
      rfl
  rw [stringBody, hscan]
  simp [joinUnits_toNat]

end Json

end CommandBridge
