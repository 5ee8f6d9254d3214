import CommandBridge.Proofs.Memory.Lookup

/-!
# Which writes pass the check

The check of a write decides about its range by a loop over addresses and a lookup for each of
them. `RegionMap.checkWrite_exact` says what it decides in terms of the list of regions that the map
was made of: the range fits into the address space, and every address of it lies in a region that
may be written (`Writable`). If one does not, the refusal names the lowest such address
(`LeastRefused`).

Both checks of a write are the same function of the features that count as present, which is
monotone in them: more features never refuse more. So the check at submission, for which all of
them are present, refuses what every session refuses, and no lower address.

The numbers of the check are unbounded. On a machine they are words, of thirty-two or sixty-four
bits: `RegionMap.checkWord?` does the same with words and gives up where a sum overflows or an
address loses bits. It never gives up, for the size of a range is compared with its bound before it
is added to anything.
-/

namespace CommandBridge

/-! ### Ranges -/

/-- A range has at least one byte and at most 4096, and lies in the address space. -/
structure RangeFits (start : Address) (size : Nat) : Prop where
  pos : 1 ≤ size
  le_limit : size ≤ 4096
  end_le : start.toNat + size ≤ 65536

/-- The address is one of the `size` addresses from `start` on. -/
def InRange (start : Address) (size : Nat) (a : Address) : Prop :=
  start.toNat ≤ a.toNat ∧ a.toNat < start.toNat + size

instance (start : Address) (size : Nat) (a : Address) : Decidable (InRange start size a) :=
  inferInstanceAs (Decidable (_ ∧ _))

theorem checkRange_eq_ok {start : Address} {size : Nat} :
    checkRange start size = .ok () ↔ RangeFits start size := by
  rw [checkRange]
  split
  · next hzero => exact iff_of_false nofun fun h => absurd h.pos (by omega)
  split
  · next hlong => exact iff_of_false nofun fun h => absurd h.le_limit (Nat.not_le_of_lt hlong)
  split
  · next hbeyond => exact iff_of_false nofun fun h => absurd h.end_le (Nat.not_le_of_lt hbeyond)
  · next hzero hlong hbeyond =>
    exact iff_of_true rfl
      ⟨Nat.pos_of_ne_zero hzero, Nat.le_of_not_lt hlong, Nat.le_of_not_lt hbeyond⟩

namespace RangeFits

variable {start : Address} {size : Nat}

/-- The address at an offset into the range has all its bits. -/
theorem toNat_ofNat (h : RangeFits start size) {offset : Nat} (hlt : offset < size) :
    (Address.ofNat (start.toNat + offset)).toNat = start.toNat + offset := by
  have hend := h.end_le
  exact Address.toNat_ofNat_of_lt (by rw [Address.spaceSize]; omega)

theorem mem_range (h : RangeFits start size) {a : Address} :
    a ∈ Address.range start size ↔ InRange start size a := by
  simp only [Address.range, List.mem_map, List.mem_range]
  constructor
  · rintro ⟨offset, hlt, rfl⟩
    rw [InRange, h.toNat_ofNat hlt]
    omega
  · rintro ⟨hle, hlt⟩
    refine ⟨a.toNat - start.toNat, by omega, ?_⟩
    rw [Nat.add_sub_cancel' hle, Address.ofNat_toNat]

/-- The first address of a range with a property is the lowest one. -/
theorem find?_range (h : RangeFits start size) {p : Address → Bool} {a : Address} :
    (Address.range start size).find? p = some a ↔
      InRange start size a ∧ p a = true ∧
        ∀ b, InRange start size b → b.toNat < a.toNat → p b = false := by
  rw [Address.range, List.find?_map, Option.map_eq_some_iff]
  simp only [List.find?_range_eq_some, List.mem_range, Function.comp_apply, Bool.not_eq_true']
  constructor
  · rintro ⟨offset, ⟨hp, hlt, hlower⟩, rfl⟩
    rw [InRange, h.toNat_ofNat hlt]
    refine ⟨by omega, hp, ?_⟩
    rintro b ⟨hle, -⟩ hb
    have hbefore := hlower (b.toNat - start.toNat) (by omega)
    rwa [Nat.add_sub_cancel' hle, Address.ofNat_toNat] at hbefore
  · rintro ⟨⟨hle, hlt⟩, hp, hlower⟩
    refine ⟨a.toNat - start.toNat, ⟨?_, by omega, fun offset hoffset => ?_⟩, ?_⟩
    · rwa [Nat.add_sub_cancel' hle, Address.ofNat_toNat]
    · have hnumber := h.toNat_ofNat (show offset < size by omega)
      refine hlower _ ?_ (by omega)
      rw [InRange, hnumber]
      omega
    · rw [Nat.add_sub_cancel' hle, Address.ofNat_toNat]

end RangeFits

/-! ### The verdict about a range -/

/-- The permission allows writing in a session that has the given features. -/
def Permission.Allows (has : Feature → Bool) : Permission → Prop
  | readOnly => False
  | readWrite => True
  | conditional needs => has needs = true

instance (has : Feature → Bool) : DecidablePred (Permission.Allows has)
  | .readOnly => isFalse id
  | .readWrite => isTrue trivial
  | .conditional needs => inferInstanceAs (Decidable (has needs = true))

theorem Permission.allows_iff {has : Feature → Bool} {p : Permission} :
    Id.run (p.allows fun f => pure (has f)) = true ↔ p.Allows has := by
  cases p <;> simp [Permission.allows, Permission.Allows]

/-- Features that are added take no permission away. -/
theorem Permission.Allows.mono {has more : Feature → Bool} (hmore : ∀ f, has f = true → more f = true)
    {p : Permission} (h : p.Allows has) : p.Allows more := by
  cases p with
  | readOnly => exact h
  | readWrite => trivial
  | conditional needs => exact hmore needs h

/-- Some region of the list has the address and may be written. -/
def Writable (regions : List Region) (has : Feature → Bool) (a : Address) : Prop :=
  ∃ r ∈ regions, r.first.toNat ≤ a.toNat ∧ a.toNat ≤ r.last.toNat ∧ r.permission.Allows has

instance (regions : List Region) (has : Feature → Bool) (a : Address) :
    Decidable (Writable regions has a) :=
  inferInstanceAs (Decidable (∃ r ∈ regions, _))

/-- The lowest address of a range that may not be written. -/
structure LeastRefused (regions : List Region) (has : Feature → Bool) (start : Address)
    (size : Nat) (a : Address) : Prop where
  mem : InRange start size a
  refused : ¬ Writable regions has a
  lower : ∀ b, InRange start size b → b.toNat < a.toNat → Writable regions has b

/-- Two addresses that are both the lowest one are the same. -/
theorem LeastRefused.unique {regions : List Region} {has : Feature → Bool} {start : Address}
    {size : Nat} {a b : Address} (ha : LeastRefused regions has start size a)
    (hb : LeastRefused regions has start size b) : a = b := by
  refine Address.ext_toNat (Nat.le_antisymm ?_ ?_)
  · exact Nat.le_of_not_lt fun hlt => hb.refused (ha.lower b hb.mem hlt)
  · exact Nat.le_of_not_lt fun hlt => ha.refused (hb.lower a ha.mem hlt)

theorem Writable.mono {regions : List Region} {has more : Feature → Bool}
    (hmore : ∀ f, has f = true → more f = true) {a : Address} (h : Writable regions has a) :
    Writable regions more a := by
  obtain ⟨r, hmem, hle, hge, hallows⟩ := h
  exact ⟨r, hmem, hle, hge, hallows.mono hmore⟩

namespace RegionMap

/-- What the check says about a range in a session that has the given features. -/
def verdict (map : RegionMap) (start : Address) (size : Nat) (has : Feature → Bool) :
    Except CommandError Unit :=
  Id.run (map.checkWrite start size fun f => pure (has f))

/-- Whether an address may not be written in a session that has the given features. -/
def denies (map : RegionMap) (has : Feature → Bool) (a : Address) : Bool :=
  !Id.run ((map.permission a).allows fun f => pure (has f))

theorem firstDenied_eq_find? (map : RegionMap) (has : Feature → Bool) (addresses : List Address) :
    Id.run (map.firstDenied (fun f => pure (has f)) addresses) = addresses.find? (map.denies has) := by
  induction addresses with
  | nil => rfl
  | cons a rest ih =>
    rw [firstDenied, List.find?_cons, ← ih, denies]
    cases hallows : Id.run ((map.permission a).allows fun f => pure (has f)) <;>
      simp [hallows]

section Map

variable {regions : List Region} {map : RegionMap} (h : ofRegions regions = .ok map)
include h

/-- The permission of an address, in terms of the regions. -/
theorem permission_allows_iff {has : Feature → Bool} {a : Address} :
    (map.permission a).Allows has ↔ Writable regions has a := by
  constructor
  · intro hallows
    rw [permission] at hallows
    cases hregion : map.regionAt a with
    | none =>
      rw [hregion] at hallows
      exact hallows.elim
    | some r =>
      rw [hregion] at hallows
      obtain ⟨hmem, hcontains⟩ := (regionAt_eq_some_iff h).mp hregion
      obtain ⟨hle, hge⟩ := Region.contains_iff.mp hcontains
      exact ⟨r, hmem, hle, hge, hallows⟩
  · rintro ⟨r, hmem, hle, hge, hallows⟩
    rwa [permission_of_mem h hmem (Region.contains_iff.mpr ⟨hle, hge⟩)]

theorem denies_eq_true {has : Feature → Bool} {a : Address} :
    map.denies has a = true ↔ ¬ Writable regions has a := by
  rw [← permission_allows_iff h, ← Permission.allows_iff, denies, Bool.not_eq_true',
    Bool.not_eq_true]

theorem denies_eq_false {has : Feature → Bool} {a : Address} :
    map.denies has a = false ↔ Writable regions has a := by
  rw [← Bool.not_eq_true, denies_eq_true h, Classical.not_not]

/-- The verdict about a range is one of three: the range does not fit, all of it may be written, or
some address of it is the lowest one that may not. -/
theorem verdict_cases (start : Address) (size : Nat) (has : Feature → Bool) :
    (¬ RangeFits start size ∧
      ∃ why, map.verdict start size has = .error (.invalidArgument why)) ∨
    (RangeFits start size ∧ (∀ a, InRange start size a → Writable regions has a) ∧
      map.verdict start size has = .ok ()) ∨
    (RangeFits start size ∧ ∃ a, LeastRefused regions has start size a ∧
      map.verdict start size has = .error (.permissionDenied a)) := by
  rw [verdict, checkWrite]
  cases hrange : checkRange start size with
  | error why =>
    refine .inl ⟨fun hfits => ?_, why, rfl⟩
    rw [checkRange_eq_ok.mpr hfits] at hrange
    cases hrange
  | ok _ =>
    have hfits : RangeFits start size := checkRange_eq_ok.mp hrange
    simp only [Id.run_bind, firstDenied_eq_find?]
    cases hfind : (Address.range start size).find? (map.denies has) with
    | none =>
      refine .inr (.inl ⟨hfits, fun a ha => ?_, rfl⟩)
      have hallowed := List.find?_eq_none.mp hfind a (hfits.mem_range.mpr ha)
      rwa [denies_eq_true h, Classical.not_not] at hallowed
    | some a =>
      obtain ⟨hmem, hdenied, hlower⟩ := hfits.find?_range.mp hfind
      refine .inr (.inr ⟨hfits, a, ⟨hmem, (denies_eq_true h).mp hdenied, fun b hb hlt => ?_⟩, rfl⟩)
      exact (denies_eq_false h).mp (hlower b hb hlt)

theorem verdict_eq_ok {start : Address} {size : Nat} {has : Feature → Bool} :
    map.verdict start size has = .ok () ↔
      RangeFits start size ∧ ∀ a, InRange start size a → Writable regions has a := by
  rcases verdict_cases h start size has with ⟨hnot, why, hverdict⟩ | ⟨hfits, hall, hverdict⟩ |
    ⟨hfits, a, hleast, hverdict⟩ <;> rw [hverdict]
  · exact iff_of_false nofun fun hfits => hnot hfits.1
  · exact iff_of_true rfl ⟨hfits, hall⟩
  · exact iff_of_false nofun fun hall => hleast.refused (hall.2 a hleast.mem)

theorem verdict_eq_invalid {start : Address} {size : Nat} {has : Feature → Bool} :
    (∃ why, map.verdict start size has = .error (.invalidArgument why)) ↔
      ¬ RangeFits start size := by
  rcases verdict_cases h start size has with ⟨hnot, why, hverdict⟩ | ⟨hfits, -, hverdict⟩ |
    ⟨hfits, a, -, hverdict⟩ <;> rw [hverdict]
  · exact iff_of_true ⟨why, rfl⟩ hnot
  · exact iff_of_false nofun fun hnot => hnot hfits
  · exact iff_of_false nofun fun hnot => hnot hfits

theorem verdict_eq_denied {start : Address} {size : Nat} {has : Feature → Bool} {a : Address} :
    map.verdict start size has = .error (.permissionDenied a) ↔
      RangeFits start size ∧ LeastRefused regions has start size a := by
  rcases verdict_cases h start size has with ⟨hnot, why, hverdict⟩ | ⟨hfits, hall, hverdict⟩ |
    ⟨hfits, b, hleast, hverdict⟩ <;> rw [hverdict]
  · exact iff_of_false nofun fun hleast => hnot hleast.1
  · exact iff_of_false nofun fun hleast => hleast.2.refused (hall a hleast.2.mem)
  · constructor
    · intro hsame
      cases hsame
      exact ⟨hfits, hleast⟩
    · rintro ⟨-, hleast'⟩
      rw [hleast.unique hleast']

/-- More features never refuse more. -/
theorem verdict_mono {start : Address} {size : Nat} {has more : Feature → Bool}
    (hmore : ∀ f, has f = true → more f = true) (hok : map.verdict start size has = .ok ()) :
    map.verdict start size more = .ok () := by
  obtain ⟨hfits, hall⟩ := (verdict_eq_ok h).mp hok
  exact (verdict_eq_ok h).mpr ⟨hfits, fun a ha => (hall a ha).mono hmore⟩

end Map

end RegionMap

/-! ### The check in words -/

/-- The sum of two words, if it fits into a word. -/
def addWord? (a b : USize) : Option USize :=
  if a.toNat + b.toNat < USize.size then some (a + b) else none

theorem addWord?_eq_some {a b : USize} {n : Nat} (hsum : a.toNat + b.toNat = n)
    (hlt : n < USize.size) : addWord? a b = some (USize.ofNat n) := by
  rw [addWord?, if_pos (hsum ▸ hlt), ← hsum, USize.ofNat_add, USize.ofNat_toNat, USize.ofNat_toNat]

namespace Address

/-- The number of an address as a word. -/
def word (a : Address) : USize := USize.ofNat a.toNat

/-- The address with the given number, if sixteen bits are enough for it. -/
def ofWord? (n : USize) : Option Address :=
  if n.toNat < spaceSize then some (ofNat n.toNat) else none

/-- The addresses of a range, each of them computed from a sum of words. -/
def rangeWord? (start : Address) (size : USize) : Option (List Address) :=
  (List.range size.toNat).mapM fun offset =>
    (addWord? start.word (USize.ofNat offset)).bind ofWord?

end Address

/-- The check of a range, with the sum computed in words. -/
def checkRangeWord? (start : Address) (size : USize) : Option (Except Misuse Unit) :=
  if size.toNat = 0 then some (.error .emptyRange)
  else if maxRangeSize < size.toNat then some (.error (.longRange size.toNat))
  else (addWord? start.word size).map fun stop =>
    if Address.spaceSize < stop.toNat then .error (.rangeBeyondSpace start size.toNat) else .ok ()

/-- The check of a write, with all sums computed in words. -/
def RegionMap.checkWord? (map : RegionMap) (start : Address) (size : USize)
    (has : Feature → Bool) : Option (Except CommandError Unit) := do
  match ← checkRangeWord? start size with
  | .error why => some (.error (.invalidArgument why))
  | .ok () =>
    let addresses ← Address.rangeWord? start size
    match Id.run (map.firstDenied (fun f => pure (has f)) addresses) with
    | some a => some (.error (.permissionDenied a))
    | none => some (.ok ())

/-- Numbers up to the length of the address space and a range are words. -/
theorem lt_wordSize {n : Nat} (h : n ≤ Address.spaceSize + maxRangeSize) : n < USize.size := by
  have hsize := USize.le_size
  rw [Address.spaceSize, maxRangeSize] at h
  omega

theorem Address.toNat_word (a : Address) : a.word.toNat = a.toNat :=
  USize.toNat_ofNat_of_lt' (lt_wordSize (Nat.le_add_right_of_le (Nat.le_of_lt a.toNat_lt)))

theorem checkRangeWord?_eq (start : Address) (size : USize) :
    checkRangeWord? start size = some (checkRange start size.toNat) := by
  rw [checkRangeWord?, checkRange]
  split
  · rfl
  split
  · rfl
  · next hlong =>
    have hword : start.toNat + size.toNat < USize.size := by
      have hstart := start.toNat_lt
      exact lt_wordSize (by omega)
    rw [addWord?_eq_some (by rw [start.toNat_word]) hword, Option.map_some,
      USize.toNat_ofNat_of_lt' hword]

theorem mapM_eq_some_map {α β : Type} {f : α → Option β} {g : α → β} {xs : List α}
    (h : ∀ x ∈ xs, f x = some (g x)) : xs.mapM f = some (xs.map g) := by
  induction xs with
  | nil => rfl
  | cons x rest ih =>
    obtain ⟨hx, hrest⟩ := List.forall_mem_cons.mp h
    rw [List.mapM_cons, hx, ih hrest]
    rfl

theorem RangeFits.rangeWord?_eq {start : Address} {size : USize}
    (h : RangeFits start size.toNat) :
    Address.rangeWord? start size = some (Address.range start size.toNat) := by
  refine mapM_eq_some_map fun offset hmem => ?_
  have hlt : offset < size.toNat := List.mem_range.mp hmem
  have hspace : start.toNat + offset < Address.spaceSize := by
    have hend := h.end_le
    rw [Address.spaceSize]
    omega
  have hoffset : (USize.ofNat offset).toNat = offset :=
    USize.toNat_ofNat_of_lt' (Nat.lt_trans hlt size.toNat_lt_size)
  have hword : start.toNat + offset < USize.size :=
    lt_wordSize (Nat.le_add_right_of_le (Nat.le_of_lt hspace))
  rw [addWord?_eq_some (by rw [start.toNat_word, hoffset]) hword, Option.bind_some,
    Address.ofWord?, USize.toNat_ofNat_of_lt' hword, if_pos hspace]

namespace RegionMap

/-- No sum of the check overflows, and no address loses bits. -/
theorem checkWord?_eq (map : RegionMap) (start : Address) (size : USize) (has : Feature → Bool) :
    map.checkWord? start size has = some (map.verdict start size.toNat has) := by
  rw [checkWord?, checkRangeWord?_eq, verdict, checkWrite]
  cases hrange : checkRange start size.toNat with
  | error why => rfl
  | ok _ =>
    rw [Option.bind_eq_bind, Option.bind_some, (checkRange_eq_ok.mp hrange).rangeWord?_eq]
    dsimp only
    rw [Option.bind_eq_bind, Option.bind_some, Id.run_bind]
    cases Id.run (map.firstDenied (fun f => pure (has f)) (Address.range start size.toNat)) <;> rfl

/-! ### What the check decides -/

variable {regions : List Region} {map : RegionMap}

/-- The check of a write is exact, for every map, range and set of features.

* It passes if the range fits and each of its addresses lies in a region that may be written; it
  refuses the argument if the range does not fit; otherwise it names the lowest address of the range
  that may not be written.
* Computed in words, it meets no sum that overflows and no address that loses bits.
* It is monotone in the features. The check at submission passes what some session lets pass, and
  what it refuses is refused in every session, at the same address or a lower one. -/
theorem checkWrite_exact (h : ofRegions regions = .ok map) (start : Address) (size : Nat) :
    (∀ has,
      (map.verdict start size has = .ok () ↔
        RangeFits start size ∧ ∀ a, InRange start size a → Writable regions has a) ∧
      ((∃ why, map.verdict start size has = .error (.invalidArgument why)) ↔
        ¬ RangeFits start size) ∧
      (∀ a, map.verdict start size has = .error (.permissionDenied a) ↔
        RangeFits start size ∧ LeastRefused regions has start size a) ∧
      (RangeFits start size → ¬ (∀ a, InRange start size a → Writable regions has a) →
        ∃ a, map.verdict start size has = .error (.permissionDenied a))) ∧
    (∀ word : USize, word.toNat = size → ∀ has,
      map.checkWord? start word has = some (map.verdict start size has)) ∧
    (∀ has more : Feature → Bool, (∀ f, has f = true → more f = true) →
      map.verdict start size has = .ok () → map.verdict start size more = .ok ()) ∧
    (map.checkStatic start size = .ok () ↔ ∃ has, map.verdict start size has = .ok ()) ∧
    (∀ a, map.checkStatic start size = .error (.permissionDenied a) →
      ∀ has, ∃ b, map.verdict start size has = .error (.permissionDenied b) ∧
        b.toNat ≤ a.toNat) := by
  refine ⟨fun has => ⟨verdict_eq_ok h, verdict_eq_invalid h, fun a => verdict_eq_denied h, ?_⟩,
    ?_, fun has more => verdict_mono h, ⟨fun hstatic => ⟨_, hstatic⟩, ?_⟩, fun a hstatic has => ?_⟩
  · intro hfits hnot
    rcases verdict_cases h start size has with ⟨hbad, -⟩ | ⟨-, hall, -⟩ | ⟨-, a, -, hverdict⟩
    · exact absurd hfits hbad
    · exact absurd hall hnot
    · exact ⟨a, hverdict⟩
  · rintro word rfl has
    exact checkWord?_eq map start word has
  · rintro ⟨has, hok⟩
    exact verdict_mono h (fun _ _ => rfl) hok
  · -- The address that is refused with all features is refused with the given ones, too.
    obtain ⟨hfits, hleast⟩ := (verdict_eq_denied h).mp hstatic
    have hrefused : ¬ Writable regions has a := fun hwritable =>
      hleast.refused (hwritable.mono fun _ _ => rfl)
    rcases verdict_cases h start size has with ⟨hbad, -⟩ | ⟨-, hall, -⟩ | ⟨-, b, hb, hverdict⟩
    · exact absurd hfits hbad
    · exact absurd (hall a hleast.mem) hrefused
    · exact ⟨b, hverdict, Nat.le_of_not_lt fun hlt => hrefused (hb.lower a hleast.mem hlt)⟩

/-- Four bytes from the last two of battery-backed memory on: at submission the first byte behind
the region is refused, and a session without battery refuses the first byte of all. -/
theorem checkWrite_straddling :
    (RegionMap.mk Settings.defaultRegions).checkStatic (Address.ofNat 0x7FFE) 4 =
        .error (.permissionDenied (Address.ofNat 0x8000)) ∧
      (RegionMap.mk Settings.defaultRegions).verdict (Address.ofNat 0x7FFE) 4 (fun _ => false) =
        .error (.permissionDenied (Address.ofNat 0x7FFE)) := by
  obtain ⟨hexact, -⟩ := checkWrite_exact Settings.ofRegions_standard (Address.ofNat 0x7FFE) 4
  have hfits : RangeFits (Address.ofNat 0x7FFE) 4 := ⟨by decide, by decide, by decide⟩
  refine ⟨((hexact fun _ => true).2.2.1 _).mpr ⟨hfits, ?_⟩,
    ((hexact fun _ => false).2.2.1 _).mpr ⟨hfits, ?_⟩⟩
  · -- What is below the refused address lies in the last two bytes of the region.
    refine ⟨by decide, by decide, fun b hb hlt => ?_⟩
    have hlow : 0x6000 ≤ b.toNat := Nat.le_trans (by decide) hb.1
    exact ⟨_, List.mem_cons_of_mem _ List.mem_cons_self, hlow, Nat.le_of_lt_succ hlt, rfl⟩
  · exact ⟨by decide, by decide, fun b hb hlt => absurd hb.1 (Nat.not_le_of_lt hlt)⟩

end RegionMap

end CommandBridge
