import CommandBridge.Command.Admission
import CommandBridge.Proofs.Text.Numerals
import Mathlib.Data.List.Basic
import Mathlib.Data.List.TakeWhile
import Mathlib.Data.Nat.Digits.Defs

/-!
# How addresses are spelled

The grammar of written numbers is stated without reference to the reader: what a trimmed text is
(`Text.Trims`), what a numeral stands for as a sum over the places of its digits
(`Text.IsNumeral`), and the three spellings of a number (`Address.Spells`). The reader accepts a
text exactly if it spells an address, and otherwise its error tells apart a text of blanks only, one
that spells a larger number and one that spells nothing (`Address.read_exact`).

Numerals may have any number of digits, while the reader keeps the number in a word. That this makes
no difference is `Text.numeralWord?_eq`. That the reader's choice of a radix is right for all three
spellings is `Address.spells_iff`; in particular no text has two of them.
-/

namespace CommandBridge

namespace Text

/-! ### Trimmed texts -/

/-- `t` is what is left of `cs` without the blanks at its ends. -/
structure Trims (cs t : List Char) : Prop where
  cut : ∃ before after, cs = before ++ (t ++ after) ∧
    (∀ c ∈ before, isBlank c = true) ∧ ∀ c ∈ after, isBlank c = true
  first : ∀ c ∈ t.head?, isBlank c = false
  last : ∀ c ∈ t.getLast?, isBlank c = false

/-- Dropping blanks stops where something else comes first. -/
theorem dropWhile_isBlank {before rest : List Char} (hbefore : ∀ c ∈ before, isBlank c = true)
    (hrest : ∀ c ∈ rest.head?, isBlank c = false) :
    (before ++ rest).dropWhile isBlank = rest := by
  rw [List.dropWhile_append_of_pos hbefore]
  cases rest with
  | nil => rfl
  | cons c rest => exact List.dropWhile_cons_of_neg (by simp [hrest c rfl])

theorem head?_dropWhile_isBlank (cs : List Char) :
    ∀ c ∈ (cs.dropWhile isBlank).head?, isBlank c = false := by
  intro c hc
  have hhead := List.head?_dropWhile_not isBlank cs
  rw [Option.mem_def.mp hc] at hhead
  exact hhead

theorem Trims.eq_trimmed {cs t : List Char} (h : Trims cs t) : t = trimmed cs := by
  obtain ⟨before, after, rfl, hbefore, hafter⟩ := h.cut
  by_cases ht : t = []
  · subst ht
    have hblank : ∀ c ∈ before ++ after, isBlank c = true := by
      intro c hc
      exact (List.mem_append.mp hc).elim (hbefore c) (hafter c)
    rw [trimmed, List.nil_append, ← List.append_nil (before ++ after),
      dropWhile_isBlank hblank (by simp)]
    rfl
  · have hfirst : ∀ c ∈ (t ++ after).head?, isBlank c = false := by
      rw [List.head?_append_of_ne_nil t ht]
      exact h.first
    have hlast : ∀ c ∈ t.reverse.head?, isBlank c = false := by
      rw [List.head?_reverse]
      exact h.last
    rw [trimmed, dropWhile_isBlank hbefore hfirst, List.reverse_append,
      dropWhile_isBlank (fun c hc => hafter c (List.mem_reverse.mp hc)) hlast, List.reverse_reverse]

theorem trims_trimmed (cs : List Char) : Trims cs (trimmed cs) := by
  generalize hrest : cs.dropWhile isBlank = rest
  generalize hkept : rest.reverse.dropWhile isBlank = kept
  have ht : trimmed cs = kept.reverse := by rw [trimmed, hrest, hkept]
  have hcs : cs = cs.takeWhile isBlank ++ rest := by
    rw [← hrest, List.takeWhile_append_dropWhile]
  have hsplit : rest = kept.reverse ++ (rest.reverse.takeWhile isBlank).reverse := by
    rw [← hkept, ← List.reverse_append, List.takeWhile_append_dropWhile, List.reverse_reverse]
  rw [ht]
  refine ⟨⟨cs.takeWhile isBlank, (rest.reverse.takeWhile isBlank).reverse, ?_, ?_, ?_⟩, ?_, ?_⟩
  · rw [← hsplit]
    exact hcs
  · exact fun c hc => List.mem_takeWhile_imp hc
  · exact fun c hc => List.mem_takeWhile_imp (List.mem_reverse.mp hc)
  · intro c hc
    refine head?_dropWhile_isBlank cs c ?_
    rw [hrest, hsplit]
    exact List.mem_head?_append_of_mem_head? hc
  · intro c hc
    rw [List.getLast?_reverse, ← hkept] at hc
    exact head?_dropWhile_isBlank _ c hc

/-- Every text can be trimmed, in one way. -/
theorem trims_iff {cs t : List Char} : Trims cs t ↔ t = trimmed cs :=
  ⟨Trims.eq_trimmed, fun h => h ▸ trims_trimmed cs⟩

/-! ### Numerals -/

/-- The digits are a numeral of `n`: there is at least one, each belongs to the radix, and `n` is
the sum of their values, each multiplied by the power of the radix for its place. -/
def IsNumeral (radix : Nat) (digits : List Char) (n : Nat) : Prop :=
  digits ≠ [] ∧ ∃ values : List Nat, digits.map digitValue? = values.map some ∧
    (∀ d ∈ values, d < radix) ∧ n = Nat.ofDigits radix values.reverse

/-- Digits lie between zero and `f`, and those of the radix ten not above nine. -/
theorem toNat_of_isDigitOf {radix : Nat} {c : Char} (h : isDigitOf radix c = true) :
    0x30 ≤ c.toNat ∧ c.toNat ≤ 0x66 ∧ (radix ≤ 10 → c.toNat ≤ 0x39) := by
  obtain ⟨d, hd, hlt⟩ := isDigitOf_iff.mp h
  simp only [digitValue?, Char.le_def, UInt32.le_iff_toNat_le] at hd
  split at hd
  case isTrue hrange =>
    cases hd
    exact ⟨hrange.1, Nat.le_trans hrange.2 (by decide), fun _ => hrange.2⟩
  case isFalse =>
    split at hd
    case isTrue hrange =>
      cases hd
      exact ⟨Nat.le_trans (by decide) hrange.1, hrange.2, fun _ => by omega⟩
    case isFalse =>
      split at hd
      case isTrue hrange =>
        cases hd
        exact ⟨Nat.le_trans (by decide) hrange.1, Nat.le_trans hrange.2 (by decide),
          fun _ => by omega⟩
      case isFalse => cases hd

theorem isBlank_of_isDigitOf {radix : Nat} {c : Char} (h : isDigitOf radix c = true) :
    isBlank c = false := by
  obtain ⟨hlow, hhigh, -⟩ := toNat_of_isDigitOf h
  refine Bool.eq_false_iff.mpr fun hblank => ?_
  simp only [isBlank, Bool.or_eq_true, Bool.and_eq_true, decide_eq_true_eq, beq_iff_eq] at hblank
  omega

theorem numeralValue_eq_ofDigits {radix : Nat} {digits : List Char} {values : List Nat}
    (h : digits.map digitValue? = values.map some) :
    numeralValue radix digits = Nat.ofDigits radix values.reverse := by
  induction digits using List.reverseRecOn generalizing values with
  | nil =>
    have hnil : values = [] := List.map_eq_nil_iff.mp h.symm
    rw [hnil]
    rfl
  | append_singleton digits c ih =>
    rw [List.map_append, eq_comm, List.map_eq_append_iff] at h
    obtain ⟨front, last, rfl, hfront, hlast⟩ := h
    obtain ⟨d, rfl, hd⟩ := List.map_eq_singleton_iff.mp hlast
    rw [numeralValue_append_singleton, ih hfront.symm, ← hd, Option.getD_some, List.reverse_append,
      List.reverse_singleton, List.singleton_append, Nat.ofDigits_cons, Nat.add_comm, Nat.mul_comm]

/-- Digits that belong to the radix are a numeral of one number. -/
theorem isNumeral_iff {radix n : Nat} {digits : List Char} :
    IsNumeral radix digits n ↔ digits ≠ [] ∧ (∀ c ∈ digits, isDigitOf radix c = true) ∧
      n = numeralValue radix digits := by
  refine and_congr_right fun _ => ?_
  constructor
  · rintro ⟨values, hvalues, hlt, rfl⟩
    refine ⟨fun c hc => ?_, (numeralValue_eq_ofDigits hvalues).symm⟩
    have hmem : digitValue? c ∈ values.map some := hvalues ▸ List.mem_map_of_mem hc
    obtain ⟨d, hd, hvalue⟩ := List.mem_map.mp hmem
    exact isDigitOf_iff.mpr ⟨d, hvalue.symm, hlt d hd⟩
  · rintro ⟨hdigits, rfl⟩
    have hvalues : digits.map digitValue? =
        (digits.map fun c => (digitValue? c).getD 0).map some := by
      rw [List.map_map]
      refine List.map_congr_left fun c hc => ?_
      obtain ⟨d, hd, -⟩ := isDigitOf_iff.mp (hdigits c hc)
      rw [Function.comp_apply, hd, Option.getD_some]
    refine ⟨_, hvalues, ?_, numeralValue_eq_ofDigits hvalues⟩
    intro d hd
    obtain ⟨c, hc, rfl⟩ := List.mem_map.mp hd
    obtain ⟨d, hd, hlt⟩ := isDigitOf_iff.mp (hdigits c hc)
    rw [hd, Option.getD_some]
    exact hlt

end Text

open Text

namespace Address

/-! ### Spellings -/

/-- The ways to write a number as an address. -/
inductive Spells : List Char → Nat → Prop
  /-- A mark and hexadecimal digits. -/
  | marked {x : Char} {digits : List Char} {n : Nat} :
      x = 'x' ∨ x = 'X' → IsNumeral 16 digits n → Spells ('0' :: x :: digits) n
  /-- Hexadecimal digits that show by a letter what they are. -/
  | lettered {digits : List Char} {n : Nat} :
      (∃ c ∈ digits, isHexLetter c = true) → IsNumeral 16 digits n → Spells digits n
  | plain {digits : List Char} {n : Nat} : IsNumeral 10 digits n → Spells digits n

theorem isWellFormed_iff {s : Shape} {n : Nat} :
    s.isWellFormed = true ∧ n = s.value ↔ IsNumeral s.radix s.digits n := by
  rw [isNumeral_iff, Shape.isWellFormed, Bool.and_eq_true, List.all_eq_true, and_assoc]
  simp [Shape.value]

/-- A decimal digit is no letter. -/
theorem isHexLetter_of_isDigitOf {c : Char} (h : isDigitOf 10 c = true) :
    isHexLetter c = false := by
  obtain ⟨-, -, hten⟩ := toNat_of_isDigitOf h
  have hle : c ≤ '9' := hten (Nat.le_refl 10)
  have hlower : ¬ 'a' ≤ c := fun ha => absurd (Char.le_trans ha hle) (by decide)
  have hupper : ¬ 'A' ≤ c := fun ha => absurd (Char.le_trans ha hle) (by decide)
  simp [isHexLetter, hlower, hupper]

/-- A mark belongs to no numeral. -/
theorem not_isNumeral_of_mark {x : Char} (hx : x = 'x' ∨ x = 'X') {radix n : Nat}
    {digits : List Char} : ¬ IsNumeral radix ('0' :: x :: digits) n := by
  intro h
  obtain ⟨-, hdigits, -⟩ := isNumeral_iff.mp h
  obtain ⟨d, hd, -⟩ := isDigitOf_iff.mp (hdigits x (by simp))
  obtain rfl | rfl := hx <;> cases hd

theorem spells_marked_iff {x : Char} (hx : x = 'x' ∨ x = 'X') {digits : List Char} {n : Nat} :
    Spells ('0' :: x :: digits) n ↔ IsNumeral 16 digits n := by
  constructor
  · intro h
    cases h with
    | marked _ h => exact h
    | lettered _ h => exact absurd h (not_isNumeral_of_mark hx)
    | plain h => exact absurd h (not_isNumeral_of_mark hx)
  · exact .marked hx

/-- Without a mark a letter decides about the radix. -/
theorem spells_unmarked_iff {t : List Char} {n : Nat}
    (hunmarked : ∀ x digits, x = 'x' ∨ x = 'X' → t ≠ '0' :: x :: digits) :
    Spells t n ↔ IsNumeral (if t.any isHexLetter then 16 else 10) t n := by
  by_cases hletter : ∃ c ∈ t, isHexLetter c = true
  · rw [if_pos (List.any_eq_true.mpr hletter)]
    refine ⟨fun h => ?_, .lettered hletter⟩
    cases h with
    | marked hx _ => exact absurd rfl (hunmarked _ _ hx)
    | lettered _ h => exact h
    | plain h =>
      obtain ⟨c, hc, hletter⟩ := hletter
      rw [isHexLetter_of_isDigitOf ((isNumeral_iff.mp h).2.1 c hc)] at hletter
      cases hletter
  · rw [if_neg (mt List.any_eq_true.mp hletter)]
    refine ⟨fun h => ?_, .plain⟩
    cases h with
    | marked hx _ => exact absurd rfl (hunmarked _ _ hx)
    | lettered hsome _ => exact absurd hsome hletter
    | plain h => exact h

/-- The reader takes a text apart as it is spelled. -/
theorem spells_iff {t : List Char} {n : Nat} :
    Spells t n ↔ (Shape.split t).isWellFormed = true ∧ n = (Shape.split t).value := by
  rw [isWellFormed_iff]
  fun_cases Shape.split t
  case case1 digits => exact spells_marked_iff (.inl rfl)
  case case2 digits => exact spells_marked_iff (.inr rfl)
  case case3 hlower hupper =>
    refine spells_unmarked_iff fun x digits hx ht => ?_
    obtain rfl | rfl := hx
    · exact hlower digits ht
    · exact hupper digits ht

theorem Spells.unique {t : List Char} {n m : Nat} (hn : Spells t n) (hm : Spells t m) : n = m :=
  (spells_iff.mp hn).2.trans (spells_iff.mp hm).2.symm

theorem Spells.isBlank {t : List Char} {n : Nat} (h : Spells t n) :
    ∀ c ∈ t, Text.isBlank c = false := by
  have hdigits : ∀ {radix digits}, IsNumeral radix digits n →
      ∀ c ∈ digits, Text.isBlank c = false :=
    fun hnumeral c hc => isBlank_of_isDigitOf ((isNumeral_iff.mp hnumeral).2.1 c hc)
  cases h with
  | marked hx hnumeral =>
    intro c hc
    obtain rfl | rfl | hc : c = '0' ∨ c = _ ∨ c ∈ _ := by simpa using hc
    · rfl
    · obtain rfl | rfl := hx <;> rfl
    · exact hdigits hnumeral c hc
  | lettered _ hnumeral => exact hdigits hnumeral
  | plain hnumeral => exact hdigits hnumeral

/-- A spelling has no blanks to be trimmed. -/
theorem Spells.trims {t : List Char} {n : Nat} (h : Spells t n) : Trims t t where
  cut := ⟨[], [], by simp, by simp, by simp⟩
  first c hc := h.isBlank c (List.mem_of_mem_head? hc)
  last c hc := h.isBlank c (List.mem_of_getLast? hc)

theorem Spells.ne_nil {t : List Char} {n : Nat} (h : Spells t n) : t ≠ [] := by
  rintro rfl
  exact absurd (spells_iff.mp h).1 (by decide)

/-! ### Reading -/

/-- There is an address for a numeral of any length exactly if its number is small enough. -/
theorem address?_eq {s : Shape} (h : s.isWellFormed = true) :
    s.address? = if s.value < spaceSize then some (ofNat s.value) else none := by
  obtain ⟨-, hdigits, -⟩ := isNumeral_iff.mp (isWellFormed_iff.mp ⟨h, rfl⟩)
  rw [Shape.address?, numeralWord?_eq hdigits, ← Shape.value]
  cases hword : word? s.value with
  | some n => rw [Option.bind_some, word?_eq_some.mp hword]
  | none =>
    have hlarge : ¬ s.value < spaceSize := by
      have hword : UInt32.size ≤ s.value := word?_eq_none.mp hword
      have hsizes : spaceSize < UInt32.size := by decide
      omega
    rw [Option.bind_none, if_neg hlarge]

/-- The four ways in which reading ends. -/
theorem read_cases {text : String} {t : List Char} (h : Trims text.toList t) :
    (t = [] ∧ read text = .error .empty) ∨
      (∃ n, Spells t n ∧ n < spaceSize ∧ read text = .ok (ofNat n)) ∨
      (∃ n, Spells t n ∧ spaceSize ≤ n ∧ read text = .error (.outOfRange (String.ofList t))) ∨
      (t ≠ [] ∧ (∀ n, ¬ Spells t n) ∧ read text = .error (.malformed (String.ofList t))) := by
  rw [read, ← trims_iff.mp h]
  by_cases hempty : t = []
  · subst hempty
    exact .inl ⟨rfl, rfl⟩
  rw [if_neg (mt List.isEmpty_iff.mp hempty)]
  cases hshape : (Shape.split t).isWellFormed with
  | false =>
    refine .inr (.inr (.inr ⟨hempty, fun n hn => ?_, rfl⟩))
    rw [(spells_iff.mp hn).1] at hshape
    cases hshape
  | true =>
    have hspells : Spells t (Shape.split t).value := spells_iff.mpr ⟨hshape, rfl⟩
    rw [address?_eq hshape]
    by_cases hsmall : (Shape.split t).value < spaceSize
    · rw [if_pos hsmall]
      exact .inr (.inl ⟨_, hspells, hsmall, rfl⟩)
    · rw [if_neg hsmall]
      exact .inr (.inr (.inl ⟨_, hspells, Nat.le_of_not_lt hsmall, rfl⟩))

/-- The written form of an address spells its number. -/
theorem spells_text (a : Address) : Spells a.text.toList a.toNat := by
  rw [text, String.toList_ofList]
  refine .marked (.inl rfl) (isNumeral_iff.mpr ⟨?_, ?_, ?_⟩)
  · exact List.ne_nil_of_length_pos (by rw [length_hexDigits]; decide)
  · exact fun c hc => isDigitOf_of_mem_hexDigits digitValue?_upperHexDigit hc
  · exact (numeralValue_hexDigits digitValue?_upperHexDigit a.toNat_lt).symm

theorem read_text (a : Address) : read a.text = .ok a := by
  have hspells := spells_text a
  have hlt := a.toNat_lt
  rcases read_cases hspells.trims with ⟨hnil, -⟩ | ⟨n, hn, -, hread⟩ | ⟨n, hn, hlarge, -⟩ |
    ⟨-, hnone, -⟩
  · exact absurd hnil hspells.ne_nil
  · rw [hread, hn.unique hspells, ofNat_toNat]
  · rw [hn.unique hspells] at hlarge
    omega
  · exact absurd hspells (hnone _)

theorem not_spells_nil (n : Nat) : ¬ Spells [] n := fun h => h.ne_nil rfl

section

variable {text : String} {t : List Char} (h : Trims text.toList t)

include h

theorem read_eq_ok {n : Nat} (hn : n < spaceSize) : read text = .ok (ofNat n) ↔ Spells t n := by
  rcases read_cases h with ⟨rfl, hread⟩ | ⟨m, hm, hsmall, hread⟩ | ⟨m, hm, hlarge, hread⟩ |
    ⟨-, hnone, hread⟩
  · simp only [hread, reduceCtorEq, not_spells_nil]
  · rw [hread]
    constructor
    · intro hsame
      have hnumbers := congrArg toNat (Except.ok.inj hsame)
      rw [toNat_ofNat_of_lt hsmall, toNat_ofNat_of_lt hn] at hnumbers
      exact hnumbers ▸ hm
    · intro hspells
      rw [hm.unique hspells]
  · have hother : ¬ Spells t n := by
      intro hspells
      rw [hm.unique hspells] at hlarge
      omega
    simp only [hread, reduceCtorEq, hother]
  · simp only [hread, reduceCtorEq, hnone n]

theorem read_eq_empty : read text = .error .empty ↔ t = [] := by
  rcases read_cases h with ⟨rfl, hread⟩ | ⟨n, hn, -, hread⟩ | ⟨n, hn, -, hread⟩ | ⟨hne, -, hread⟩
  · simp only [hread]
  · simp only [hread, reduceCtorEq, hn.ne_nil]
  · simp only [hread, Except.error.injEq, reduceCtorEq, hn.ne_nil]
  · simp only [hread, Except.error.injEq, reduceCtorEq, hne]

theorem read_eq_outOfRange :
    read text = .error (.outOfRange (String.ofList t)) ↔ ∃ n, spaceSize ≤ n ∧ Spells t n := by
  rcases read_cases h with ⟨rfl, hread⟩ | ⟨m, hm, hsmall, hread⟩ | ⟨m, hm, hlarge, hread⟩ |
    ⟨-, hnone, hread⟩
  · simp only [hread, Except.error.injEq, reduceCtorEq, not_spells_nil, and_false, exists_false]
  · have hother : ¬ ∃ n, spaceSize ≤ n ∧ Spells t n := by
      rintro ⟨n, hlarge, hspells⟩
      rw [hm.unique hspells] at hsmall
      omega
    simp only [hread, reduceCtorEq, hother]
  · exact iff_of_true hread ⟨m, hlarge, hm⟩
  · simp only [hread, Except.error.injEq, reduceCtorEq, hnone, and_false, exists_false]

theorem read_eq_malformed :
    read text = .error (.malformed (String.ofList t)) ↔ t ≠ [] ∧ ¬ ∃ n, Spells t n := by
  rcases read_cases h with ⟨rfl, hread⟩ | ⟨m, hm, -, hread⟩ | ⟨m, hm, -, hread⟩ |
    ⟨hne, hnone, hread⟩
  · simp only [hread, Except.error.injEq, reduceCtorEq, ne_eq, not_true_eq_false, false_and]
  · have hsome : ∃ n, Spells t n := ⟨m, hm⟩
    simp only [hread, reduceCtorEq, hsome, not_true_eq_false, and_false]
  · have hsome : ∃ n, Spells t n := ⟨m, hm⟩
    simp only [hread, Except.error.injEq, reduceCtorEq, hsome, not_true_eq_false, and_false]
  · exact iff_of_true hread ⟨hne, not_exists.mpr hnone⟩

end

/-- What is misused in an address is an invalid argument. -/
theorem refuse_mapError_eq (r : Except ReadError Address) :
    (∀ a, refuse (r.mapError Misuse.address) = .ok a ↔ r = .ok a) ∧
      ∀ why, refuse (r.mapError Misuse.address) = .error (.invalidArgument (.address why)) ↔
        r = .error why := by
  cases r with
  | ok a => simp [refuse, Except.mapError]
  | error why => simp [refuse, Except.mapError]

/-- A text gives the address `n` if and only if it spells `n` when the blanks at its ends are gone.
All else is refused as an invalid argument: nothing but blanks as empty, the spelling of a larger
number as out of range, and whatever spells no number as malformed. The written form of an address
gives the address. -/
theorem read_exact {text : String} {t : List Char} (h : Trims text.toList t) :
    let answer := fun text => refuse ((read text).mapError Misuse.address)
    (∀ n ≤ 0xFFFF, answer text = .ok (ofNat n) ↔ Spells t n) ∧
    (answer text = .error (.invalidArgument (.address .empty)) ↔ t = []) ∧
    (answer text = .error (.invalidArgument (.address (.outOfRange (String.ofList t)))) ↔
      ∃ n, 0xFFFF < n ∧ Spells t n) ∧
    (answer text = .error (.invalidArgument (.address (.malformed (String.ofList t)))) ↔
      t ≠ [] ∧ ¬ ∃ n, Spells t n) ∧
    (∀ a : Address, answer a.text = .ok a) ∧
    Misuse.message (.address .empty) = "empty address" ∧
    Misuse.message (.address (.outOfRange (String.ofList t))) =
      "address '" ++ String.ofList t ++ "' out of range" ∧
    Misuse.message (.address (.malformed (String.ofList t))) =
      "malformed address '" ++ String.ofList t ++ "'" := by
  intro answer
  have hanswer := fun text => refuse_mapError_eq (read text)
  refine ⟨fun n hn => ?_, ?_, ?_, ?_, fun a => ?_, rfl, rfl, rfl⟩
  · exact ((hanswer text).1 _).trans (read_eq_ok h (Nat.lt_succ_of_le hn))
  · exact ((hanswer text).2 _).trans (read_eq_empty h)
  · exact ((hanswer text).2 _).trans (read_eq_outOfRange h)
  · exact ((hanswer text).2 _).trans (read_eq_malformed h)
  · exact ((hanswer a.text).1 a).mpr (read_text a)

/-- Zeros in front are no digits too many, neither for the word nor for the address. -/
theorem read_padded :
    let t := "0X00000000000000FFFF".toList
    Trims " \u30000X00000000000000FFFF\n".toList t ∧
      refuse ((read " \u30000X00000000000000FFFF\n").mapError Misuse.address) =
        .ok (ofNat 0xFFFF) := by
  intro t
  have htext : " \u30000X00000000000000FFFF\n".toList = [' ', '\u3000'] ++ (t ++ ['\n']) := by
    decide
  have hnumeral : IsNumeral 16 "00000000000000FFFF".toList 0xFFFF :=
    isNumeral_iff.mpr ⟨by decide, List.all_eq_true.mp (by decide), by decide⟩
  have hspells : Spells t 0xFFFF := .marked (.inr rfl) hnumeral
  have htrims : Trims " \u30000X00000000000000FFFF\n".toList t :=
    ⟨⟨_, _, htext, by simp [isBlank], by simp [isBlank]⟩, hspells.trims.first, hspells.trims.last⟩
  exact ⟨htrims, ((read_exact htrims).1 _ (Nat.le_refl _)).mpr hspells⟩

end Address

end CommandBridge
