import CommandBridge.Proofs.Bridge.Opening

/-!
# Looking up regions

An address lies in at most one region of an acceptable list, and the map of the list finds it.
A plain scan of the list in any order finds the same one (`RegionMap.lookup_eq_scan`).

What makes a list acceptable does not depend on its order: no region is inverted and no two share
an address (`checkRegions_eq_ok`). Sorting by first address turns that into an order of the
regions as a whole, in which each one ends below the start of the next (`apart_sortRegions`). The
lookup rests on this order twice. The regions that end below an address come before all others, so
that the first one of the others may be found by bisection (`RegionMap.regionAt_eq_search`); and if
the address does not lie in that one, it lies below all that follow.
-/

namespace CommandBridge

namespace Region

/-- The first region ends below the start of the second one. -/
def Below (r s : Region) : Prop := r.last.toNat < s.first.toNat

/-- The regions share no address. -/
def Apart (r s : Region) : Prop := r.Below s ∨ s.Below r

theorem Apart.symm {r s : Region} (h : r.Apart s) : s.Apart r := Or.symm h

theorem contains_iff {r : Region} {a : Address} :
    r.contains a = true ↔ r.first.toNat ≤ a.toNat ∧ a.toNat ≤ r.last.toNat := by
  simp [contains]

theorem not_contains_of_below {r s : Region} {a : Address} (h : r.Below s)
    (ha : a.toNat ≤ r.last.toNat) : s.contains a = false := by
  rw [Below] at h
  simp only [contains, Bool.and_eq_false_iff, decide_eq_false_iff_not]
  omega

theorem Apart.not_contains {r s : Region} {a : Address} (h : r.Apart s)
    (ha : r.contains a = true) : s.contains a = false := by
  rw [contains_iff] at ha
  rcases h with h | h
  · exact not_contains_of_below h ha.2
  · rw [Below] at h
    simp only [contains, Bool.and_eq_false_iff, decide_eq_false_iff_not]
    omega

end Region

/-! ### Acceptable lists -/

/-- No region is inverted. -/
def Upright (regions : List Region) : Prop := ∀ r ∈ regions, r.first.toNat ≤ r.last.toNat

theorem find?_isInverted_eq_none {regions : List Region} :
    regions.find? Region.isInverted = none ↔ Upright regions := by
  simp [List.find?_eq_none, Region.isInverted, Upright]

/-- Between regions that are not inverted, being below carries over from neighbours to all. -/
theorem firstOverlap_eq_none {regions : List Region} (h : Upright regions) :
    firstOverlap regions = none ↔ regions.Pairwise Region.Below := by
  induction regions with
  | nil => simp [firstOverlap]
  | cons r rest ih =>
    obtain ⟨-, hrest⟩ := List.forall_mem_cons.mp h
    cases rest with
    | nil => simp [firstOverlap]
    | cons s rest =>
      obtain ⟨hs, -⟩ := List.forall_mem_cons.mp hrest
      rw [firstOverlap, List.pairwise_cons, ← ih hrest]
      by_cases hrs : r.Below s
      · rw [if_neg (Nat.not_le_of_lt hrs)]
        refine ⟨fun hnone => ⟨?_, hnone⟩, fun hall => hall.2⟩
        -- What is above `s` starts behind its end, and so behind the end of `r`.
        obtain ⟨hlater, -⟩ := List.pairwise_cons.mp ((ih hrest).mp hnone)
        intro t ht
        rcases List.mem_cons.mp ht with rfl | ht
        · exact hrs
        · have hst := hlater t ht
          simp only [Region.Below] at hrs hst ⊢
          omega
      · rw [if_pos (Nat.le_of_not_lt hrs)]
        simp [hrs]

theorem perm_sortRegions (regions : List Region) : (sortRegions regions).Perm regions :=
  List.mergeSort_perm regions _

theorem upright_sortRegions {regions : List Region} :
    Upright (sortRegions regions) ↔ Upright regions := by
  simp only [Upright, (perm_sortRegions regions).mem_iff]

theorem pairwise_sortRegions (regions : List Region) :
    (sortRegions regions).Pairwise fun r s => r.first.toNat ≤ s.first.toNat := by
  have hsorted : (sortRegions regions).Pairwise fun r s =>
      decide (r.first.toNat ≤ s.first.toNat) = true := by
    refine List.pairwise_mergeSort (fun r s t hrs hst => ?_) (fun r s => ?_) regions
    · simp only [decide_eq_true_eq] at hrs hst ⊢
      omega
    · simp only [Bool.or_eq_true, decide_eq_true_eq]
      omega
  exact hsorted.imp of_decide_eq_true

/-- Sorted by first address, regions that share no address are one behind the other. -/
theorem apart_sortRegions {regions : List Region} (h : Upright regions) :
    (sortRegions regions).Pairwise Region.Below ↔ regions.Pairwise Region.Apart := by
  rw [← (perm_sortRegions regions).pairwise_iff Region.Apart.symm]
  refine ⟨fun hbelow => hbelow.imp Or.inl, fun hapart => ?_⟩
  have hupright : Upright (sortRegions regions) := upright_sortRegions.mpr h
  refine ((pairwise_sortRegions regions).and hapart).imp_of_mem ?_
  rintro r s hr hs ⟨hle, hbelow | hbelow⟩
  · exact hbelow
  · -- The one that starts first cannot be the upper one, since the other is not inverted.
    have hupright := hupright s hs
    rw [Region.Below] at hbelow
    omega

/-- A list of regions is acceptable if none is inverted and no two share an address. -/
theorem checkRegions_eq_ok {regions : List Region} :
    checkRegions regions = .ok () ↔ Upright regions ∧ regions.Pairwise Region.Apart := by
  rw [checkRegions]
  cases hinverted : regions.find? Region.isInverted with
  | some r =>
    have hnot : ¬ Upright regions := by
      rw [← find?_isInverted_eq_none, hinverted]
      exact Option.some_ne_none r
    simp [hnot]
  | none =>
    have hupright : Upright regions := find?_isInverted_eq_none.mp hinverted
    rw [← apart_sortRegions hupright, ← firstOverlap_eq_none (upright_sortRegions.mpr hupright)]
    cases firstOverlap (sortRegions regions) with
    | some pair => simp
    | none => simp [hupright]

/-! ### Bisection -/

/-- Halves the positions from `low` up to `high` until the first one is left at which `p` does not
hold. -/
def bisect (p : Nat → Bool) (low high : Nat) : Nat :=
  if low < high then
    if p (low + (high - low) / 2) then bisect p (low + (high - low) / 2 + 1) high
    else bisect p low (low + (high - low) / 2)
  else low
termination_by high - low

/-- If `p` holds below a position and nowhere from it on, bisection finds the position. -/
theorem bisect_eq {p : Nat → Bool} {low high n : Nat} (hlow : low ≤ n) (hhigh : n ≤ high)
    (hbelow : ∀ i < n, p i = true) (habove : ∀ i, n ≤ i → i < high → p i = false) :
    bisect p low high = n := by
  fun_induction bisect p low high with
  | case1 low high hlt hp ih =>
    -- The middle lies below `n`, for `p` holds there.
    refine ih (Nat.lt_of_not_le fun hle => ?_) hhigh habove
    rw [habove _ hle (by omega)] at hp
    cases hp
  | case2 low high hlt hp ih =>
    exact ih hlow (Nat.le_of_not_lt fun hgt => hp (hbelow _ hgt))
      fun i hi hmiddle => habove i hi (by omega)
  | case3 low high hdone => omega

namespace RegionMap

/-- Whether the region at a position of the map ends below an address. -/
def endsBelow (map : RegionMap) (a : Address) (i : Nat) : Bool :=
  map.regions[i]?.any fun r => r.last.toNat < a.toNat

/-- The lookup by bisection: the one region that may have the address is the first one that does
not end below it. -/
def search (map : RegionMap) (a : Address) : Option Region :=
  map.regions[bisect (map.endsBelow a) 0 map.regions.length]?.filter (·.contains a)

variable {map : RegionMap}

/-- In a sorted map the regions that end below an address come first. -/
theorem regionAt_eq_search (h : map.regions.Pairwise Region.Below) (hupright : Upright map.regions)
    (a : Address) : map.regionAt a = map.search a := by
  let p : Region → Bool := fun r => r.last.toNat < a.toNat
  have hposition : bisect (map.endsBelow a) 0 map.regions.length =
      map.regions.findIdx fun r => !p r := by
    refine bisect_eq (Nat.zero_le _) List.findIdx_le_length ?_ ?_
    · intro i hi
      have hlt : i < map.regions.length := Nat.lt_of_lt_of_le hi List.findIdx_le_length
      simpa [endsBelow, hlt, p] using List.not_of_lt_findIdx hi
    · intro i hi hlt
      have hfirst : map.regions.findIdx (fun r => !p r) < map.regions.length := by omega
      have hends : ¬ map.regions[map.regions.findIdx fun r => !p r].last.toNat < a.toNat := by
        simpa [p] using List.findIdx_getElem (w := hfirst)
      -- A region behind one that does not end below the address does not, either.
      have hle : map.regions[map.regions.findIdx fun r => !p r].last.toNat ≤
          map.regions[i].last.toNat := by
        rcases Nat.eq_or_lt_of_le hi with heq | hbefore
        · simp only [heq, Nat.le_refl]
        · have hbelow := List.pairwise_iff_getElem.mp h _ i hfirst hlt hbefore
          have hup := hupright _ (List.getElem_mem hlt)
          rw [Region.Below] at hbelow
          omega
      simp only [endsBelow, List.getElem?_eq_getElem hlt, Option.any_some, decide_eq_false_iff_not]
      omega
  rw [regionAt, search, hposition, List.dropWhile_eq_drop_findIdx_not, List.head?_drop]

/-- A plain scan finds the region that the lookup finds. -/
theorem regionAt_eq_find? (h : map.regions.Pairwise Region.Below) (a : Address) :
    map.regionAt a = map.regions.find? (·.contains a) := by
  obtain ⟨regions⟩ := map
  rw [regionAt]
  dsimp only at h ⊢
  induction regions with
  | nil => rfl
  | cons r rest ih =>
    obtain ⟨hlater, hrest⟩ := List.pairwise_cons.mp h
    by_cases hends : r.last.toNat < a.toNat
    · have hnot : r.contains a = false := by
        rw [← Bool.not_eq_true, Region.contains_iff]
        omega
      rw [List.dropWhile_cons_of_pos (by simpa using hends), ih hrest, List.find?_cons, hnot]
    · rw [List.dropWhile_cons_of_neg (by simpa using hends), List.head?_cons]
      -- The other regions start behind this one, and the address does not.
      have hnone : rest.find? (·.contains a) = none := by
        rw [List.find?_eq_none]
        intro s hs
        simp [Region.not_contains_of_below (hlater s hs) (Nat.le_of_not_lt hends)]
      cases hcontains : r.contains a <;> simp [hcontains, hnone]

end RegionMap

/-! ### Maps of acceptable lists -/

namespace RegionMap

variable {regions : List Region} {map : RegionMap}

theorem ofRegions_eq_ok : ofRegions regions = .ok map ↔
    Upright regions ∧ regions.Pairwise Region.Apart ∧ map = ⟨sortRegions regions⟩ := by
  rw [ofRegions, ← and_assoc, ← checkRegions_eq_ok]
  cases checkRegions regions with
  | error e => simp [Except.map]
  | ok _ => simp [Except.map, eq_comm]

/-- The same regions in another order have the same map. -/
theorem ofRegions_perm (h : ofRegions regions = .ok map) {others : List Region}
    (hperm : others.Perm regions) : ofRegions others = .ok map := by
  obtain ⟨hupright, hapart, rfl⟩ := ofRegions_eq_ok.mp h
  have hupright' : Upright others := fun r hr => hupright r (hperm.mem_iff.mp hr)
  have hapart' : others.Pairwise Region.Apart :=
    (hperm.pairwise_iff Region.Apart.symm).mpr hapart
  refine ofRegions_eq_ok.mpr ⟨hupright', hapart', ?_⟩
  -- Both are sorted by a strict order.
  have hsorted := (apart_sortRegions hupright).mpr hapart
  have hsorted' := (apart_sortRegions hupright').mpr hapart'
  congr 1
  refine List.Perm.eq_of_pairwise ?_ hsorted hsorted' ?_
  · intro r s hr hs hrs hsr
    have hr' := upright_sortRegions.mpr hupright r hr
    have hs' := upright_sortRegions.mpr hupright' s hs
    rw [Region.Below] at hrs hsr
    omega
  · exact ((perm_sortRegions regions).trans hperm.symm).trans (perm_sortRegions others).symm

/-- The address lies in the one region that the lookup finds, and in no region if it finds none. -/
theorem regionAt_eq_some_iff (h : ofRegions regions = .ok map) {a : Address} {r : Region} :
    map.regionAt a = some r ↔ r ∈ regions ∧ r.contains a = true := by
  obtain ⟨hupright, hapart, rfl⟩ := ofRegions_eq_ok.mp h
  have hbelow := (apart_sortRegions hupright).mpr hapart
  have hscan : RegionMap.regionAt ⟨sortRegions regions⟩ a =
      (sortRegions regions).find? (·.contains a) := regionAt_eq_find? hbelow a
  rw [hscan]
  constructor
  · intro hfind
    exact ⟨(perm_sortRegions regions).mem_iff.mp (List.mem_of_find?_eq_some hfind),
      List.find?_some (p := fun r : Region => r.contains a) hfind⟩
  · rintro ⟨hmem, hcontains⟩
    obtain ⟨before, after, hsplit⟩ := List.append_of_mem ((perm_sortRegions regions).mem_iff.mpr hmem)
    refine List.find?_eq_some_iff_append.mpr ⟨hcontains, before, after, hsplit, ?_⟩
    intro s hs
    -- A region before `r` shares no address with it.
    rw [hsplit] at hbelow
    have hsr : s.Below r := (List.pairwise_append.mp hbelow).2.2 s hs r List.mem_cons_self
    rw [Region.Apart.not_contains (.inr hsr) hcontains]
    rfl

/-- A scan of the list in any order meets the region that the lookup finds, and no other one that
has the address. -/
theorem filter_contains (h : ofRegions regions = .ok map) (a : Address) :
    regions.filter (·.contains a) = (map.regionAt a).toList := by
  obtain ⟨-, hapart, -⟩ := ofRegions_eq_ok.mp h
  cases hregion : map.regionAt a with
  | none =>
    refine List.filter_eq_nil_iff.mpr fun r hmem hcontains => ?_
    rw [(regionAt_eq_some_iff h).mpr ⟨hmem, hcontains⟩] at hregion
    cases hregion
  | some r =>
    obtain ⟨hmem, hcontains⟩ := (regionAt_eq_some_iff h).mp hregion
    obtain ⟨before, after, rfl⟩ := List.append_of_mem hmem
    obtain ⟨-, hrest, hacross⟩ := List.pairwise_append.mp hapart
    have hbefore : before.filter (·.contains a) = [] := by
      refine List.filter_eq_nil_iff.mpr fun s hs => ?_
      rw [(hacross s hs r List.mem_cons_self).symm.not_contains hcontains]
      exact Bool.false_ne_true
    have hafter : after.filter (·.contains a) = [] := by
      refine List.filter_eq_nil_iff.mpr fun s hs => ?_
      rw [((List.pairwise_cons.mp hrest).1 s hs).not_contains hcontains]
      exact Bool.false_ne_true
    simp [hcontains, hbefore, hafter]

/-- The permission of an address is that of its region. -/
theorem permission_of_mem (h : ofRegions regions = .ok map) {a : Address} {r : Region}
    (hmem : r ∈ regions) (hcontains : r.contains a = true) : map.permission a = r.permission := by
  rw [permission, (regionAt_eq_some_iff h).mpr ⟨hmem, hcontains⟩]

/-- An address in no region is read-only. -/
theorem permission_of_forall_not (h : ofRegions regions = .ok map) {a : Address}
    (hnone : ∀ r ∈ regions, ¬ r.contains a = true) : map.permission a = .readOnly := by
  rw [permission]
  cases hregion : map.regionAt a with
  | none => rfl
  | some r =>
    obtain ⟨hmem, hcontains⟩ := (regionAt_eq_some_iff h).mp hregion
    exact absurd hcontains (hnone r hmem)

/-- The map of an acceptable list finds the region of the list in which an address lies, whether it
skips regions or bisects. There is at most one such region, and its permission is that of the
address; an address in no region is read-only. The regions of the map are those of the list in
ascending order, each of them ending below the start of the next, and in another order the list has
the same map. -/
theorem lookup_eq_scan (h : ofRegions regions = .ok map) :
    (∀ a r, map.regionAt a = some r ↔
      r ∈ regions ∧ r.first.toNat ≤ a.toNat ∧ a.toNat ≤ r.last.toNat) ∧
    (∀ a, regions.filter (·.contains a) = (map.regionAt a).toList) ∧
    (∀ a, map.regionAt a = map.search a) ∧
    (∀ a, (∀ r ∈ regions, r.first.toNat ≤ a.toNat ∧ a.toNat ≤ r.last.toNat →
        map.permission a = r.permission) ∧
      ((∀ r ∈ regions, ¬ (r.first.toNat ≤ a.toNat ∧ a.toNat ≤ r.last.toNat)) →
        map.permission a = .readOnly)) ∧
    (∀ others : List Region, others.Perm regions → ofRegions others = .ok map) ∧
    map.regions.Perm regions ∧
    (map.regions.Pairwise fun r s => r.first.toNat ≤ s.first.toNat) ∧
    (map.regions.Pairwise fun r s => r.last.toNat < s.first.toNat) := by
  have hscan := filter_contains h
  obtain ⟨hupright, hapart, hmap⟩ := ofRegions_eq_ok.mp h
  have hregions : map.regions = sortRegions regions := congrArg RegionMap.regions hmap
  have hbelow : map.regions.Pairwise Region.Below := by
    rw [hregions]
    exact (apart_sortRegions hupright).mpr hapart
  refine ⟨fun a r => ?_, hscan, regionAt_eq_search hbelow ?_, fun a => ⟨?_, ?_⟩,
    fun _ => ofRegions_perm h, ?_, ?_, hbelow⟩
  · rw [regionAt_eq_some_iff h, Region.contains_iff]
  · rw [hregions]
    exact upright_sortRegions.mpr hupright
  · intro r hmem hr
    exact permission_of_mem h hmem (Region.contains_iff.mpr hr)
  · intro hnone
    exact permission_of_forall_not h fun r hmem hr => hnone r hmem (Region.contains_iff.mp hr)
  · rw [hregions]
    exact perm_sortRegions regions
  · rw [hregions]
    exact pairwise_sortRegions regions

/-- The last byte of battery-backed memory, and the byte behind it, in the standard regions given in
descending order. -/
theorem lookup_descending :
    ofRegions Settings.defaultRegions.reverse = .ok ⟨Settings.defaultRegions⟩ ∧
      (RegionMap.mk Settings.defaultRegions).permission (Address.ofNat 0x7FFF) =
        .conditional .batteryBacked ∧
      (RegionMap.mk Settings.defaultRegions).permission (Address.ofNat 0x8000) = .readOnly := by
  obtain ⟨-, -, -, hpermission, hperm, -⟩ := lookup_eq_scan Settings.ofRegions_standard
  refine ⟨hperm _ (List.reverse_perm _), ?_, (hpermission _).2 (by decide)⟩
  exact (hpermission _).1 _ (List.mem_cons_of_mem _ List.mem_cons_self) (by decide)

end RegionMap

end CommandBridge
