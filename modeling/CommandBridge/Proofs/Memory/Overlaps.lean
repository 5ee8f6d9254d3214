import CommandBridge.Proofs.Memory.Lookup

/-!
# What is wrong with a list of regions

`checkRegions` compares neighbours only, after sorting by first address. That is enough to find out
whether any two regions of the list share an address, so its verdict does not depend on the order of
the list (`checkRegions_exact`).

The error does depend on the order. An inverted region is found in the list as it is given, before
anything else, and the first one counts. Two overlapping regions are neighbours in the sorted list;
what is said about them holds of the list as given because sorting moves its entries and does not
merge them (`exists_entries_of_perm`).
-/

namespace CommandBridge

/-! ### Entries of a list -/

/-- Two entries of a list in a row are two entries of every list with the same entries. -/
theorem exists_entries_of_perm {α : Type} {l before after : List α} {x y : α}
    (h : (before ++ x :: y :: after).Perm l) :
    ∃ i j : Nat, i ≠ j ∧ l[i]? = some x ∧ l[j]? = some y := by
  have hx : x ∈ l := h.mem_iff.mp (List.mem_append_right _ List.mem_cons_self)
  obtain ⟨lower, upper, rfl⟩ := List.append_of_mem hx
  -- Without the entry `x` of either list, the other entry is still there.
  have hothers : (before ++ y :: after).Perm (lower ++ upper) :=
    (List.perm_middle.symm.trans (h.trans List.perm_middle)).cons_inv
  have hy : y ∈ lower ++ upper := hothers.mem_iff.mp (List.mem_append_right _ List.mem_cons_self)
  have hget : (lower ++ x :: upper)[lower.length]? = some x := by simp
  rcases List.mem_append.mp hy with hy | hy
  · obtain ⟨j, hj, rfl⟩ := List.getElem_of_mem hy
    refine ⟨lower.length, j, by omega, hget, ?_⟩
    rw [List.getElem?_append_left hj, List.getElem?_eq_getElem hj]
  · obtain ⟨j, hj, rfl⟩ := List.getElem_of_mem hy
    refine ⟨lower.length, lower.length + 1 + j, by omega, hget, ?_⟩
    rw [List.getElem?_append_right (by omega)]
    simp [show lower.length + 1 + j - lower.length = j + 1 by omega, hj]

/-- A symmetric relation holds between any two entries if it holds between each entry and the
later ones. -/
theorem pairwise_iff_entries {α : Type} {R : α → α → Prop} (hsymm : ∀ x y, R x y → R y x)
    {l : List α} :
    l.Pairwise R ↔ ∀ (i j : Nat) x y, i ≠ j → l[i]? = some x → l[j]? = some y → R x y := by
  rw [List.pairwise_iff_getElem]
  constructor
  · intro h i j x y hne hx hy
    obtain ⟨hi, rfl⟩ := List.getElem?_eq_some_iff.mp hx
    obtain ⟨hj, rfl⟩ := List.getElem?_eq_some_iff.mp hy
    rcases Nat.lt_or_gt_of_ne hne with hlt | hgt
    · exact h i j hi hj hlt
    · exact hsymm _ _ (h j i hj hi hgt)
  · intro h i j hi hj hlt
    exact h i j _ _ (Nat.ne_of_lt hlt) (List.getElem?_eq_getElem hi) (List.getElem?_eq_getElem hj)

/-! ### Shared addresses -/

namespace Region

/-- Some address lies in both regions. -/
def Overlaps (r s : Region) : Prop := ∃ a, r.contains a = true ∧ s.contains a = true

variable {r s : Region}

/-- If a region starts before another one that is not inverted, they overlap unless it ends
below the other's start. -/
theorem overlaps_of_not_below (hs : s.first.toNat ≤ s.last.toNat)
    (hle : r.first.toNat ≤ s.first.toNat) (h : ¬ r.Below s) : r.Overlaps s :=
  ⟨s.first, contains_iff.mpr ⟨hle, Nat.le_of_not_lt h⟩, contains_iff.mpr ⟨Nat.le_refl _, hs⟩⟩

/-- Regions that are not inverted share no address if and only if one ends below the other. -/
theorem apart_iff_not_overlaps (hr : r.first.toNat ≤ r.last.toNat)
    (hs : s.first.toNat ≤ s.last.toNat) : r.Apart s ↔ ¬ r.Overlaps s := by
  constructor
  · rintro hapart ⟨a, ha, ha'⟩
    rw [hapart.not_contains ha] at ha'
    cases ha'
  · intro hnone
    rcases Nat.le_total r.first.toNat s.first.toNat with hle | hle
    · exact .inl (Classical.not_not.mp fun h => hnone (overlaps_of_not_below hs hle h))
    · refine .inr (Classical.not_not.mp fun h => hnone ?_)
      obtain ⟨a, ha, ha'⟩ := overlaps_of_not_below hr hle h
      exact ⟨a, ha', ha⟩

end Region

/-! ### The verdict -/

/-- The overlapping neighbours that are found stand in the list, the lower one first. -/
theorem firstOverlap_eq_some {regions : List Region} {r s : Region}
    (h : firstOverlap regions = some (r, s)) :
    ¬ r.Below s ∧ ∃ before after, regions = before ++ r :: s :: after := by
  induction regions with
  | nil => cases h
  | cons x rest ih =>
    cases rest with
    | nil => cases h
    | cons y rest =>
      rw [firstOverlap] at h
      split at h
      · next hle =>
        cases h
        exact ⟨Nat.not_lt_of_le hle, [], rest, rfl⟩
      · obtain ⟨hnot, before, after, hsplit⟩ := ih h
        exact ⟨hnot, x :: before, after, congrArg (List.cons x) hsplit⟩

/-- The first inverted region of the list is reported, whatever follows. -/
theorem checkRegions_of_inverted {before after : List Region} {r : Region}
    (hbefore : Upright before) (hr : r.last.toNat < r.first.toNat) :
    checkRegions (before ++ r :: after) = .error (.inverted r.name r.first r.last) := by
  have hfind : (before ++ r :: after).find? Region.isInverted = some r := by
    rw [List.find?_append, find?_isInverted_eq_none.mpr hbefore, Option.none_or]
    exact List.find?_cons_of_pos (decide_eq_true hr)
  rw [checkRegions, hfind]

/-- If no region is inverted and the list is refused, two of its entries overlap, and their names
are reported. -/
theorem exists_overlap_of_upright {regions : List Region} (hupright : Upright regions)
    (hrefused : checkRegions regions ≠ .ok ()) :
    ∃ (i j : Nat) (r s : Region), i ≠ j ∧ regions[i]? = some r ∧ regions[j]? = some s ∧
      r.first.toNat ≤ s.first.toNat ∧ r.Overlaps s ∧
      checkRegions regions = .error (.overlapping r.name s.name) := by
  have hfind : regions.find? Region.isInverted = none := find?_isInverted_eq_none.mpr hupright
  rw [checkRegions, hfind] at hrefused ⊢
  cases hoverlap : firstOverlap (sortRegions regions) with
  | none =>
    rw [hoverlap] at hrefused
    exact absurd rfl hrefused
  | some pair =>
    obtain ⟨r, s⟩ := pair
    obtain ⟨hnot, before, after, hsplit⟩ := firstOverlap_eq_some hoverlap
    have hperm : (before ++ r :: s :: after).Perm regions := hsplit ▸ perm_sortRegions regions
    have hle : r.first.toNat ≤ s.first.toNat := by
      have hsorted := pairwise_sortRegions regions
      rw [hsplit] at hsorted
      exact (List.pairwise_cons.mp (List.pairwise_append.mp hsorted).2.1).1 s List.mem_cons_self
    obtain ⟨i, j, hne, hi, hj⟩ := exists_entries_of_perm hperm
    have hs : s.first.toNat ≤ s.last.toNat := hupright s (List.mem_of_getElem? hj)
    exact ⟨i, j, r, s, hne, hi, hj, hle, Region.overlaps_of_not_below hs hle hnot, rfl⟩

/-- A list of regions is accepted if and only if none of them is inverted and no two entries share
an address, neighbours or not; so the verdict is that of every other order of the list. If it is
refused, the error is about the first inverted region of the list. If there is none, it names two
entries that share an address, the one that starts no later being named first. -/
theorem checkRegions_exact (regions : List Region) :
    (checkRegions regions = .ok () ↔
      (∀ r ∈ regions, r.first.toNat ≤ r.last.toNat) ∧
        ∀ (i j : Nat) (r s : Region), i ≠ j → regions[i]? = some r → regions[j]? = some s →
          ¬ ∃ a, r.contains a = true ∧ s.contains a = true) ∧
    (∀ others : List Region, others.Perm regions →
      (checkRegions others = .ok () ↔ checkRegions regions = .ok ())) ∧
    (∀ before r after, regions = before ++ r :: after →
      (∀ s ∈ before, s.first.toNat ≤ s.last.toNat) → r.last.toNat < r.first.toNat →
      checkRegions regions = .error (.inverted r.name r.first r.last)) ∧
    ((∀ r ∈ regions, r.first.toNat ≤ r.last.toNat) → checkRegions regions ≠ .ok () →
      ∃ (i j : Nat) (r s : Region), i ≠ j ∧ regions[i]? = some r ∧ regions[j]? = some s ∧
        r.first.toNat ≤ s.first.toNat ∧ (∃ a, r.contains a = true ∧ s.contains a = true) ∧
        checkRegions regions = .error (.overlapping r.name s.name)) := by
  refine ⟨?_, ?_, ?_, exists_overlap_of_upright⟩
  · rw [checkRegions_eq_ok, pairwise_iff_entries fun _ _ => Region.Apart.symm]
    refine and_congr_right fun hupright => ?_
    refine forall₄_congr fun i j r s => forall₃_congr fun _ hr hs => ?_
    exact Region.apart_iff_not_overlaps (hupright r (List.mem_of_getElem? hr))
      (hupright s (List.mem_of_getElem? hs))
  · intro others hperm
    rw [checkRegions_eq_ok, checkRegions_eq_ok, hperm.pairwise_iff Region.Apart.symm]
    simp only [Upright, hperm.mem_iff]
  · rintro before r after rfl hbefore hr
    exact checkRegions_of_inverted hbefore hr

/-- A region that lies in another one and is given first is named second. -/
theorem checkRegions_nested :
    let wide : Region := ⟨"wide", Address.ofNat 0x100, Address.ofNat 0x1FF, .readWrite⟩
    let inner : Region := ⟨"inner", Address.ofNat 0x1F0, Address.ofNat 0x1FF, .readOnly⟩
    checkRegions [inner, wide] = .error (.overlapping "wide" "inner") := by
  intro wide inner
  obtain ⟨haccepted, -, -, hoverlap⟩ := checkRegions_exact [inner, wide]
  have hrefused : checkRegions [inner, wide] ≠ .ok () := fun h =>
    (haccepted.mp h).2 0 1 inner wide (by decide) rfl rfl ⟨Address.ofNat 0x1F8, rfl, rfl⟩
  obtain ⟨i, j, r, s, hne, hi, hj, hle, -, herror⟩ := hoverlap (by decide) hrefused
  have hi2 : i < 2 := (List.getElem?_eq_some_iff.mp hi).1
  have hj2 : j < 2 := (List.getElem?_eq_some_iff.mp hj).1
  obtain ⟨rfl, rfl⟩ | ⟨rfl, rfl⟩ : i = 0 ∧ j = 1 ∨ i = 1 ∧ j = 0 := by omega
  · cases hi
    cases hj
    exact absurd hle (by decide)
  · cases hi
    cases hj
    exact herror

end CommandBridge
