import CommandBridge.Config.Document
import CommandBridge.Proofs.Binary64.Whole
import CommandBridge.Proofs.Bridge.Opening
import CommandBridge.Proofs.Json.RoundTrip

/-!
# Settings read back

A document that was written for acceptable settings is read back to the same settings, if their
tick rate is a whole number of at most `2 ^ 49` (`Settings.read_write`).

The text is read back to the JSON value it was written for (`Json.read?_text`), so what is left is
one lemma for each kind of field: decoding the value of a field gives the field
(`Permission.ofJson?_toJson`, `Region.ofJson?_toJson`, `Settings.ofJson?_toJson`). A record has a
member for each of its names and no name twice, which is all that looking up its fields depends on
(`Json.fields?_object`).

The bound on the rate comes from reading: `60.0` is read as six hundred, divided by ten, so there
must be room for one digit more.
-/

namespace CommandBridge

open Text

/-! ### Parts of a document -/

/-- A list is decoded item by item. -/
theorem mapM_map_eq_some {α β γ : Type} {encode : α → β} {decode : β → Option γ} {result : α → γ}
    (xs : List α) (h : ∀ x ∈ xs, decode (encode x) = some (result x)) :
    (xs.map encode).mapM decode = some (xs.map result) := by
  induction xs with
  | nil => rfl
  | cons x xs ih =>
    rw [List.map_cons, List.mapM_cons, h x List.mem_cons_self,
      ih fun y hy => h y (List.mem_cons_of_mem x hy)]
    rfl

namespace Json

/-- The members of a record. -/
def memberOf (field : String × Json) : Option String × Json := (some field.1, field.2)

theorem membersNamed_cons (name : String) (field : String × Json)
    (members : List (Option String × Json)) :
    membersNamed name (memberOf field :: members) =
      if field.1 = name then field.2 :: membersNamed name members
      else membersNamed name members := by
  by_cases h : field.1 = name <;> simp [membersNamed, memberOf, h]

theorem membersNamed_of_notMem {name : String} {fields : List (String × Json)}
    (h : name ∉ fields.map (·.1)) : membersNamed name (fields.map memberOf) = [] := by
  induction fields with
  | nil => rfl
  | cons first rest ih =>
    rw [List.map_cons, List.mem_cons, not_or] at h
    rw [List.map_cons, membersNamed_cons, if_neg (Ne.symm h.1), ih h.2]

/-- A field is found under its name, if no name occurs twice. -/
theorem membersNamed_of_mem {fields : List (String × Json)} {field : String × Json}
    (hnodup : (fields.map (·.1)).Nodup) (h : field ∈ fields) :
    membersNamed field.1 (fields.map memberOf) = [field.2] := by
  induction fields with
  | nil => exact absurd h List.not_mem_nil
  | cons first rest ih =>
    rw [List.map_cons, List.nodup_cons] at hnodup
    obtain ⟨hfirst, hrest⟩ := hnodup
    rw [List.map_cons, membersNamed_cons]
    rcases List.mem_cons.mp h with rfl | hmem
    · rw [if_pos rfl, membersNamed_of_notMem hfirst]
    · have hne : first.1 ≠ field.1 := by
        intro heq
        exact hfirst (heq ▸ List.mem_map_of_mem hmem)
      rw [if_neg hne, ih hrest hmem]

/-- The fields of a record that was written as an object. -/
theorem fields?_object (fields : List (String × Json)) (hnodup : (fields.map (·.1)).Nodup) :
    fields? (fields.map (·.1)) (object (fields.map memberOf)) =
      some (fields.map fun field => some field.2) := by
  have hall : (fields.map memberOf).all (·.1.isSome) = true := by
    simp [memberOf]
  rw [fields?, if_pos hall]
  refine mapM_map_eq_some fields fun field hfield => ?_
  rw [member?, membersNamed_of_mem hnodup hfield]

/-- A record of well-formed fields is written faithfully. -/
theorem writable_object (fields : List (String × Json)) (h : ∀ field ∈ fields, Writable field.2) :
    Writable (object (fields.map memberOf)) := by
  refine .object ?_ ?_ <;> intro m hm <;> obtain ⟨field, hfield, rfl⟩ := List.mem_map.mp hm
  · rfl
  · exact h field hfield

theorem natBelow?_ofNat {bound n : Nat} (h : n < bound) : (ofNat n).natBelow? bound = some n := by
  simp [ofNat, natBelow?, Literal.toNat?, Literal.isInteger, Literal.ofNat, h]

theorem writable_ofNat (n : Nat) : Writable (ofNat n) :=
  .number (Literal.wellFormed_toDigits (by simp))

end Json

/-! ### Regions -/

theorem Address.ofJson?_ofNat (a : Address) : ofJson? (.ofNat a.toNat) = some a := by
  rw [ofJson?, Json.natBelow?_ofNat a.toNat_lt, Option.map_some, ofNat_toNat]

theorem Feature.ofJson?_word (f : Feature) : ofJson? (.ofString f.word) = some f := by
  cases f
  rfl

namespace Permission

theorem ofJson?_toJson (p : Permission) : ofJson? p.toJson = some p := by
  cases p with
  | readOnly => rfl
  | readWrite => rfl
  | conditional needs =>
    have hfeature := Feature.ofJson?_word needs
    simp only [toJson, ofJson?, Json.variant?, hfeature, Option.map_some]

theorem writable_toJson (p : Permission) : p.toJson.Writable := by
  cases p with
  | readOnly => exact .string _
  | readWrite => exact .string _
  | conditional needs =>
    refine Json.writable_object [("conditional", .ofString needs.word)] ?_
    intro field hfield
    cases List.mem_singleton.mp hfield
    exact .string _

end Permission

namespace Region

/-- The fields of a region in a document. -/
def fields (r : Region) : List (String × Json) :=
  [("name", .ofString r.name), ("start", .ofNat r.first.toNat), ("end", .ofNat r.last.toNat),
    ("permission", r.permission.toJson)]

theorem ofJson?_toJson (r : Region) : ofJson? r.toJson = some r := by
  have hnodup : (r.fields.map (·.1)).Nodup :=
    show ["name", "start", "end", "permission"].Nodup from by decide
  have hfields : r.toJson.fields? ["name", "start", "end", "permission"] =
      some (r.fields.map fun field => some field.2) := Json.fields?_object r.fields hnodup
  rw [ofJson?, hfields]
  simp only [fields, List.map_cons, List.map_nil, Address.ofJson?_ofNat,
    Permission.ofJson?_toJson]
  rfl

theorem writable_toJson (r : Region) : r.toJson.Writable := by
  refine Json.writable_object r.fields ?_
  simp only [fields, List.forall_mem_cons]
  exact ⟨.string _, Json.writable_ofNat _, Json.writable_ofNat _, r.permission.writable_toJson,
    List.forall_mem_nil _⟩

end Region

/-! ### Tick rates -/

namespace Binary64

/-- A whole number is written with a zero behind its point. -/
theorem toJson_ofNat {n : Nat} (hpos : 0 < n) (h : n ≤ 2 ^ 49) :
    Json.ofFloat (ofNat n) = .number ⟨false, Nat.toDigits 10 n, ['0'], none⟩ := by
  have hlt : n < 2 ^ 53 := Nat.lt_of_le_of_lt h (by decide)
  have hlength : (Nat.toDigits 10 n).length ≤ 16 :=
    (Nat.length_toDigits_le_iff (by decide) (by decide)).mpr (Nat.lt_of_le_of_lt h (by decide))
  have hfinite : (ofNat n).isFinite = true := decide_eq_true (isWhole_ofNat hpos hlt).1.finite
  have hpositional : Layout.document.positional (Nat.toDigits 10 n).length = true := by
    simp only [Layout.document, Bool.and_eq_true, decide_eq_true_eq]
    omega
  rw [Json.ofFloat, if_pos hfinite, Layout.write_ofNat hpos hlt hpositional]
  rfl

theorem ofJson?_toJson {n : Nat} (hpos : 0 < n) (h : n ≤ 2 ^ 49) :
    ofJson? (Json.ofFloat (ofNat n)) = some (ofNat n) := by
  rw [toJson_ofNat hpos h]
  exact ofLiteral?_whole hpos (by omega)

theorem writable_toJson {n : Nat} (hpos : 0 < n) (h : n ≤ 2 ^ 49) :
    (Json.ofFloat (ofNat n)).Writable := by
  rw [toJson_ofNat hpos h]
  refine .number (Literal.wellFormed_toDigits fun c hc => ?_)
  cases List.mem_singleton.mp hc
  rfl

end Binary64

/-! ### Settings -/

namespace Settings

theorem limit?_ofNat (n : UInt64) : limit? (.ofNat n.toNat) = some n := by
  rw [limit?, Json.natBelow?_ofNat n.toNat_lt, Option.map_some, UInt64.ofNat_toNat]

theorem count?_ofNat (n : UInt8) : count? (.ofNat n.toNat) = some n := by
  rw [count?, Json.natBelow?_ofNat n.toNat_lt, Option.map_some, UInt8.ofNat_toNat]

theorem regions?_map_toJson (regions : List Region) :
    regions? (.array (regions.map Region.toJson)) = some regions := by
  have hdecode := mapM_map_eq_some regions fun r _ => r.ofJson?_toJson
  rwa [List.map_id'] at hdecode

/-- The fields of settings in a document. -/
def fields (s : Settings) : List (String × Json) :=
  [("queue_capacity", .ofNat s.queueCapacity.toNat),
    ("max_commands_per_tick", .ofNat s.commandsPerTick.toNat),
    ("tick_rate_hz", .ofFloat s.tickRate), ("channel_count", .ofNat s.channelCount.toNat),
    ("regions", .array (s.regions.map Region.toJson)),
    ("default_timeout_ms", .ofNat s.timeoutMillis.toNat)]

/-- Settings are decoded if their tick rate is. -/
theorem ofJson?_toJson {s : Settings}
    (hrate : Binary64.ofJson? (.ofFloat s.tickRate) = some s.tickRate) :
    ofJson? s.toJson = some s := by
  have hnodup : (s.fields.map (·.1)).Nodup := show fieldNames.Nodup from by decide
  have hfields : s.toJson.fields? fieldNames = some (s.fields.map fun field => some field.2) :=
    Json.fields?_object s.fields hnodup
  rw [ofJson?, hfields]
  simp only [fields, List.map_cons, List.map_nil, fieldOr, limit?_ofNat, count?_ofNat, hrate,
    regions?_map_toJson]
  rfl

theorem writable_toJson {s : Settings} (hrate : (Json.ofFloat s.tickRate).Writable) :
    s.toJson.Writable := by
  refine Json.writable_object s.fields ?_
  simp only [fields, List.forall_mem_cons]
  refine ⟨Json.writable_ofNat _, Json.writable_ofNat _, hrate, Json.writable_ofNat _, .array ?_,
    Json.writable_ofNat _, List.forall_mem_nil _⟩
  intro v hv
  obtain ⟨r, -, rfl⟩ := List.mem_map.mp hv
  exact r.writable_toJson

/-- Acceptable settings are read back from the document written for them. -/
theorem read_write {s : Settings} {n : Nat} (hcheck : s.check = .ok ())
    (hrate : s.tickRate = Binary64.ofNat n) (hpos : 1 ≤ n) (hle : n ≤ 2 ^ 49) :
    read s.write = .ok s := by
  have hdecode : ofJson? s.toJson = some s :=
    ofJson?_toJson (by rw [hrate]; exact Binary64.ofJson?_toJson hpos hle)
  have hwritable : s.toJson.Writable :=
    writable_toJson (by rw [hrate]; exact Binary64.writable_toJson hpos hle)
  rw [read, write, Json.read?_text hwritable, Option.bind_some, hdecode]
  simp only [hcheck]
  rfl

/-- Settings at the end of what they can be, with names that have to be escaped. -/
def extreme : Settings where
  queueCapacity := 0xFFFFFFFFFFFFFFFF
  commandsPerTick := 0x20000000000001
  tickRate := Binary64.ofNat 0x2000000000000
  channelCount := 8
  regions :=
    [⟨"\"quoted\" and C:\\ram", Address.ofNat 0x0000, Address.ofNat 0x0000, .readWrite⟩,
     ⟨"\x00\x08\t\n\x0b\x0c\r\x1f\x7f", Address.ofNat 0x0001, Address.ofNat 0x1FFF, .readOnly⟩,
     ⟨"", Address.ofNat 0x2000, Address.ofNat 0x2000, .readOnly⟩,
     ⟨"Größe / 記憶 🎮", Address.ofNat 0x6000, Address.ofNat 0xFFFF, .conditional .batteryBacked⟩]
  timeoutMillis := 0xFFFFFFFFFFFFFFFF

theorem check_extreme : extreme.check = .ok () := by
  have hregions : checkRegions extreme.regions = .ok () :=
    checkRegions_of_sorted (sortRegions_of_pairwise (by decide)) (by decide) (by decide)
  have hrate : isUsableRate extreme.tickRate = true := by decide +kernel
  rw [check_eq_ok]
  exact ⟨by decide, by decide, hrate, by decide, by decide, by decide, hregions⟩

theorem read_write_extreme :
    extreme.check = .ok () ∧ extreme.tickRate = Binary64.ofNat 0x2000000000000 ∧
      read extreme.write = .ok extreme :=
  ⟨check_extreme, rfl, read_write check_extreme rfl (by decide) (by decide)⟩

end Settings

end CommandBridge
