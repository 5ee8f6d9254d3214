import CommandBridge.Bridge.Basic

/-!
# Opening a bridge

What a bridge starts with, given that its settings are acceptable (`Bridge.start_eq_ok`), and that
the standard settings are (`Bridge.start_standard`).
-/

namespace CommandBridge

/-! ### The standard settings -/

theorem sortRegions_of_pairwise {regions : List Region}
    (h : regions.Pairwise fun r s => r.first.toNat ≤ s.first.toNat) :
    sortRegions regions = regions :=
  List.mergeSort_of_pairwise (h.imp decide_eq_true)

namespace Settings

/-- Regions in order are acceptable if none is inverted and no neighbours overlap. -/
theorem checkRegions_of_sorted {regions : List Region}
    (hsorted : sortRegions regions = regions)
    (hinverted : regions.find? Region.isInverted = none)
    (hoverlap : firstOverlap regions = none) : checkRegions regions = .ok () := by
  rw [checkRegions, hinverted, hsorted, hoverlap]

theorem sortRegions_defaultRegions : sortRegions defaultRegions = defaultRegions :=
  sortRegions_of_pairwise (by decide)

theorem checkRegions_defaultRegions : checkRegions defaultRegions = .ok () :=
  checkRegions_of_sorted sortRegions_defaultRegions (by decide) (by decide)

/-- A check that throws unless something holds. -/
theorem guard_eq_ok {p : Prop} [Decidable p] {e : SettingsError} {rest : Except SettingsError Unit} :
    (if p then (do (throw e : Except SettingsError PUnit); rest) else rest) = .ok () ↔
      ¬ p ∧ rest = .ok () := by
  by_cases hp : p
  · simp only [hp, ↓reduceIte, not_true, false_and, iff_false]
    intro h
    cases h
  · simp only [hp, ↓reduceIte, not_false_iff, true_and]

/-- What acceptable settings are. -/
theorem check_eq_ok {s : Settings} :
    s.check = .ok () ↔ s.queueCapacity ≠ 0 ∧ s.commandsPerTick ≠ 0 ∧
      isUsableRate s.tickRate = true ∧ s.channelCount ≠ 0 ∧ s.channelCount.toNat ≤ maxChannels ∧
      s.timeoutMillis ≠ 0 ∧ checkRegions s.regions = .ok () := by
  have hregions : (checkRegions s.regions).mapError SettingsError.regions = .ok () ↔
      checkRegions s.regions = .ok () := by
    cases checkRegions s.regions with
    | ok _ => exact ⟨fun _ => rfl, fun _ => rfl⟩
    | error e => constructor <;> (intro h; cases h)
  simp only [check, guard_eq_ok, hregions]
  simp [and_assoc]

theorem isUsableRate_standard : isUsableRate standard.tickRate = true := by decide +kernel

/-- The standard settings with another tick rate are acceptable if the rate is. -/
theorem check_of_isUsableRate {rate : Binary64} (h : isUsableRate rate = true) :
    ({ standard with tickRate := rate } : Settings).check = .ok () := by
  have hregions : checkRegions standard.regions = .ok () := checkRegions_defaultRegions
  rw [check, h, hregions]
  rfl

/-- The standard settings are acceptable. -/
theorem check_standard : standard.check = .ok () := check_of_isUsableRate isUsableRate_standard

theorem ofRegions_standard :
    RegionMap.ofRegions standard.regions = .ok ⟨Settings.defaultRegions⟩ := by
  rw [RegionMap.ofRegions, standard, checkRegions_defaultRegions, sortRegions_defaultRegions]
  rfl

/-- The standard settings with another capacity of the queue and another budget. -/
def sized (capacity budget : UInt64) : Settings :=
  { standard with queueCapacity := capacity, commandsPerTick := budget }

theorem check_sized {capacity budget : UInt64} (hcapacity : capacity ≠ 0) (hbudget : budget ≠ 0) :
    (sized capacity budget).check = .ok () := by
  have hregions : checkRegions standard.regions = .ok () := checkRegions_defaultRegions
  rw [check, sized, if_neg hcapacity, if_neg hbudget, isUsableRate_standard, hregions]
  rfl

end Settings

/-! ### New bridges -/

namespace Bridge

variable {σ : Type}

/-- What a bridge starts with. -/
theorem start_eq_ok {machine : σ} {settings : Settings} {b : Bridge σ} :
    start machine settings = .ok b ↔
      ∃ regions, settings.check = .ok () ∧ RegionMap.ofRegions settings.regions = .ok regions ∧
        b = {
          session := ⟨machine, OverlaySet.fresh settings.channelCount.toNat, Tick.zero, false,
            regions, settings.tickRate⟩
          intake :=
            Intake.start ⟨regions, settings.channelCount.toNat⟩ settings.queueCapacity.toNat
          budget := settings.commandsPerTick.toNat } := by
  rw [start]
  constructor
  · intro h
    cases hcheck : settings.check with
    | error e => rw [hcheck] at h; cases h
    | ok _ =>
      rw [hcheck] at h
      cases hregions : RegionMap.ofRegions settings.regions with
      | error e => rw [hregions] at h; cases h
      | ok regions =>
        rw [hregions] at h
        cases h
        exact ⟨regions, rfl, rfl, rfl⟩
  · rintro ⟨regions, hcheck, hregions, rfl⟩
    rw [hcheck, hregions]
    rfl

/-- Bridges that were started with the same regions have the same map of them. -/
theorem regions_eq_of_start {machine machine' : σ} {settings settings' : Settings}
    {b c : Bridge σ} (hb : start machine settings = .ok b) (hc : start machine' settings' = .ok c)
    (hregions : settings'.regions = settings.regions) :
    c.session.regions = b.session.regions := by
  obtain ⟨map, -, hmap, rfl⟩ := start_eq_ok.mp hb
  obtain ⟨map', -, hmap', rfl⟩ := start_eq_ok.mp hc
  rw [hregions, hmap] at hmap'
  exact (Except.ok.inj hmap').symm

/-- Bridges that were started around the same machine have the same session, whatever their queues
and budgets are. -/
theorem session_eq_of_start {machine : σ} {settings settings' : Settings} {b c : Bridge σ}
    (hb : start machine settings = .ok b) (hc : start machine settings' = .ok c)
    (hregions : settings'.regions = settings.regions)
    (hchannels : settings'.channelCount = settings.channelCount)
    (hrate : settings'.tickRate = settings.tickRate) : c.session = b.session := by
  have hmap := regions_eq_of_start hb hc hregions
  obtain ⟨map, -, -, rfl⟩ := start_eq_ok.mp hb
  obtain ⟨map', -, -, rfl⟩ := start_eq_ok.mp hc
  dsimp only at hmap ⊢
  rw [hmap, hchannels, hrate]

/-- The bridge that opens around a machine with the standard settings. -/
def standard (machine : σ) : Bridge σ where
  session := ⟨machine, OverlaySet.fresh 4, Tick.zero, false, ⟨Settings.defaultRegions⟩,
    Binary64.ofNat 60⟩
  intake := Intake.start ⟨⟨Settings.defaultRegions⟩, 4⟩ 1000
  budget := 16

theorem start_standard (machine : σ) : start machine .standard = .ok (standard machine) :=
  start_eq_ok.mpr ⟨_, Settings.check_standard, Settings.ofRegions_standard, rfl⟩

/-- The bridge that opens around a machine with the settings `Settings.sized`. -/
def sized (machine : σ) (capacity budget : UInt64) : Bridge σ :=
  { standard machine with
    intake := Intake.start ⟨⟨Settings.defaultRegions⟩, 4⟩ capacity.toNat
    budget := budget.toNat }

theorem start_sized (machine : σ) {capacity budget : UInt64} (hcapacity : capacity ≠ 0)
    (hbudget : budget ≠ 0) :
    start machine (.sized capacity budget) = .ok (sized machine capacity budget) :=
  start_eq_ok.mpr ⟨_, Settings.check_sized hcapacity hbudget, Settings.ofRegions_standard, rfl⟩

end Bridge

end CommandBridge
