import CommandBridge.Proofs.Json.Tokens

/-!
# Documents read back

The text of a JSON value is read back to that value (`read?_text`), if its numbers are well-formed
literals and its strings have a text (`Writable`).

The proof is an induction over the value. What it needs of a part of the value is `ReadsBack`: with
enough fuel, the reader takes just the characters of that part from the front of any input in which
a comma, a closing bracket or the end comes after it. The fuel is twice the number of characters,
less one, because a value uses at least one character and is entered once from the level above it,
which also uses fuel.
-/

namespace CommandBridge.Json

open Text

/-- Values that the writer writes faithfully. -/
inductive Writable : Json → Prop
  | null : Writable null
  | bool (value : Bool) : Writable (bool value)
  | number {literal : Literal} (h : literal.WellFormed) : Writable (number literal)
  | string (s : String) : Writable (ofString s)
  | array {items : List Json} (h : ∀ v ∈ items, Writable v) : Writable (array items)
  | object {members : List (Option String × Json)} (keys : ∀ m ∈ members, m.1.isSome = true)
      (values : ∀ m ∈ members, Writable m.2) : Writable (object members)

/-- Whether the input may come after a value inside a document. -/
def EndsValue (cs : List Char) : Prop := ∀ c ∈ cs.head?, c = ',' ∨ c = ']' ∨ c = '\x7d'

theorem endsValue_nil : EndsValue [] := by
  intro c hc
  cases hc

theorem endsValue_cons {c : Char} (h : c = ',' ∨ c = ']' ∨ c = '\x7d') (cs : List Char) :
    EndsValue (c :: cs) := by
  intro d hd
  cases hd
  exact h

theorem EndsValue.endsNumber {cs : List Char} (h : EndsValue cs) : EndsNumber cs := by
  intro c hc
  rcases h c hc with rfl | rfl | rfl <;> decide

/-- Whether the input starts with neither space nor a closing bracket. -/
def StartsValue (cs : List Char) : Prop := ∃ c rest, cs = c :: rest ∧ isSpace c = false ∧ c ≠ ']'

theorem StartsValue.length_pos {cs : List Char} (h : StartsValue cs) : 1 ≤ cs.length := by
  obtain ⟨c, rest, rfl, -, -⟩ := h
  exact Nat.le_add_left 1 _

theorem skipSpace_cons {c : Char} (h : isSpace c = false) (cs : List Char) :
    skipSpace (c :: cs) = c :: cs := by
  simp [skipSpace, h]

/-- What the reader does with the characters of a value inside a document. -/
def ReadsBack (v : Json) : Prop :=
  ∀ fuel rest, 2 * v.write.length ≤ fuel + 1 → EndsValue rest →
    value fuel (v.write ++ rest) = some (v, rest)

/-- With fuel for a character there is fuel for a step. -/
theorem readsBack_of_succ {v : Json} (hpos : 1 ≤ v.write.length)
    (h : ∀ fuel rest, 2 * v.write.length ≤ fuel + 2 → EndsValue rest →
      value (fuel + 1) (v.write ++ rest) = some (v, rest)) : ReadsBack v := by
  intro fuel rest hfuel hrest
  cases fuel with
  | zero => omega
  | succ fuel => exact h fuel rest hfuel hrest

/-! ### Numbers -/

/-- A number starts with a minus sign or a digit. -/
theorem exists_chars_eq_cons {l : Literal} (h : l.WellFormed) :
    ∃ c cs, l.chars = c :: cs ∧ (c = '-' ∨ isDigitOf 10 c = true) := by
  rw [chars_eq]
  cases l.negative with
  | true => exact ⟨'-', _, rfl, .inl rfl⟩
  | false =>
    cases hwhole : l.whole with
    | nil => exact absurd hwhole h.nonempty
    | cons d ds => exact ⟨d, _, rfl, .inr (h.whole d (by rw [hwhole]; exact List.mem_cons_self))⟩

theorem isSpace_of_number {c : Char} (h : c = '-' ∨ isDigitOf 10 c = true) :
    isSpace c = false := by
  rcases h with rfl | h
  · decide
  · refine Bool.eq_false_iff.mpr fun hspace => ?_
    simp only [isSpace, Bool.or_eq_true, decide_eq_true_eq] at hspace
    rcases hspace with ((rfl | rfl) | rfl) | rfl <;> exact absurd h (by decide)

/-- Nothing else starts like a number. -/
theorem value_of_number {c : Char} (h : c = '-' ∨ isDigitOf 10 c = true) (fuel : Nat)
    (cs : List Char) :
    value (fuel + 1) (c :: cs) =
      (scanNumber (c :: cs)).map fun scanned => (number scanned.1, scanned.2) := by
  have hskip := skipSpace_cons (isSpace_of_number h) cs
  have hne : ∀ d, (d ≠ '-' ∧ isDigitOf 10 d = false) → c ≠ d := by
    rintro d ⟨hminus, hdigit⟩ rfl
    rw [hdigit] at h
    rcases h with h | h
    · exact hminus h
    · cases h
  rw [value, hskip]
  split
  case h_1 heq => cases heq; exact absurd rfl (hne 'n' (by decide))
  case h_2 heq => cases heq; exact absurd rfl (hne 't' (by decide))
  case h_3 heq => cases heq; exact absurd rfl (hne 'f' (by decide))
  case h_4 heq => cases heq; exact absurd rfl (hne '"' (by decide))
  case h_5 heq => cases heq; exact absurd rfl (hne '[' (by decide))
  case h_6 heq => cases heq; exact absurd rfl (hne '\x7b' (by decide))
  case h_7 => rfl

/-- Written values start with neither space nor a closing bracket. -/
theorem Writable.startsValue {v : Json} (h : Writable v) : StartsValue v.write := by
  cases h with
  | null => exact ⟨'n', _, rfl, by decide, by decide⟩
  | bool value => cases value <;> exact ⟨_, _, rfl, by decide, by decide⟩
  | number h =>
    obtain ⟨c, cs, hchars, hc⟩ := exists_chars_eq_cons h
    refine ⟨c, cs, hchars, isSpace_of_number hc, ?_⟩
    rintro rfl
    exact absurd hc (by decide)
  | string s => exact ⟨'"', _, rfl, by decide, by decide⟩
  | array _ => exact ⟨'[', _, by rw [write], by decide, by decide⟩
  | object _ _ => exact ⟨'\x7b', _, by rw [write], by decide, by decide⟩

theorem readsBack_number {l : Literal} (h : l.WellFormed) : ReadsBack (number l) := by
  refine readsBack_of_succ (Writable.number h).startsValue.length_pos fun fuel rest _ hrest => ?_
  obtain ⟨c, cs, hchars, hc⟩ := exists_chars_eq_cons h
  have hscan := scanNumber_chars h hrest.endsNumber
  rw [write]
  rw [hchars, List.cons_append] at hscan ⊢
  rw [value_of_number hc, hscan]
  rfl

/-! ### Lists -/

/-- One item, and the bracket after it. -/
theorem items_last {fuel : Nat} {cs rest : List Char} {v : Json}
    (h : value fuel cs = some (v, ']' :: rest)) : items (fuel + 1) cs = some ([v], rest) := by
  rw [items, h]
  rfl

/-- One item, and the items after its comma. -/
theorem items_next {fuel : Nat} {cs cs' rest : List Char} {v : Json} {vs : List Json}
    (h : value fuel cs = some (v, ',' :: cs')) (hrest : items fuel cs' = some (vs, rest)) :
    items (fuel + 1) cs = some (v :: vs, rest) := by
  rw [items, h]
  simp only [skipSpace_cons (c := ',') (by decide), hrest, Option.map_some]

theorem writeItems_cons_cons (v w : Json) (ws : List Json) :
    writeItems (v :: w :: ws) = v.write ++ ',' :: writeItems (w :: ws) := by
  simp [writeItems]

/-- The items of an array are read back if each of them is. -/
theorem items_writeItems {vs : List Json} (hne : vs ≠ []) (hwritable : ∀ v ∈ vs, Writable v)
    (hread : ∀ v ∈ vs, ReadsBack v) {fuel : Nat} (hfuel : 2 * (writeItems vs).length ≤ fuel)
    (rest : List Char) : items fuel (writeItems vs ++ ']' :: rest) = some (vs, rest) := by
  induction vs generalizing fuel with
  | nil => exact absurd rfl hne
  | cons v vs ih =>
    have hpos := (hwritable v List.mem_cons_self).startsValue.length_pos
    have hv := hread v List.mem_cons_self
    cases vs with
    | nil =>
      rw [writeItems] at hfuel ⊢
      obtain ⟨fuel, rfl⟩ : ∃ f, fuel = f + 1 := ⟨fuel - 1, by omega⟩
      exact items_last (hv fuel _ hfuel (endsValue_cons (by decide) _))
    | cons w ws =>
      rw [writeItems_cons_cons, List.length_append, List.length_cons] at hfuel
      rw [writeItems_cons_cons, List.append_assoc, List.cons_append]
      obtain ⟨fuel, rfl⟩ : ∃ f, fuel = f + 1 := ⟨fuel - 1, by omega⟩
      refine items_next (hv fuel _ (by omega) (endsValue_cons (by decide) _)) ?_
      exact ih (List.cons_ne_nil w ws) (fun u hu => hwritable u (List.mem_cons_of_mem v hu))
        (fun u hu => hread u (List.mem_cons_of_mem v hu)) (by omega)

/-- One member, and the brace after it. -/
theorem members_last {fuel : Nat} {key : String} {cs rest : List Char} {v : Json}
    (h : value fuel cs = some (v, '\x7d' :: rest)) :
    members (fuel + 1) (writeString key ++ ':' :: cs) = some ([(some key, v)], rest) := by
  rw [writeString, List.cons_append, members, skipSpace_cons (by decide)]
  simp only [stringBody_writeString, skipSpace_cons (c := ':') (by decide), h,
    skipSpace_cons (c := '\x7d') (by decide)]

/-- One member, and the members after its comma. -/
theorem members_next {fuel : Nat} {key : String} {cs cs' rest : List Char} {v : Json}
    {ms : List (Option String × Json)} (h : value fuel cs = some (v, ',' :: cs'))
    (hrest : members fuel cs' = some (ms, rest)) :
    members (fuel + 1) (writeString key ++ ':' :: cs) = some ((some key, v) :: ms, rest) := by
  rw [writeString, List.cons_append, members, skipSpace_cons (by decide)]
  simp only [stringBody_writeString, skipSpace_cons (c := ':') (by decide), h,
    skipSpace_cons (c := ',') (by decide), hrest, Option.map_some]

theorem writeMembers_cons_cons (key : Option String) (v : Json) (m : Option String × Json)
    (ms : List (Option String × Json)) :
    writeMembers ((key, v) :: m :: ms) =
      writeString (key.getD "") ++ ':' :: (v.write ++ ',' :: writeMembers (m :: ms)) := by
  simp [writeMembers]

theorem length_writeString_pos (s : String) : 1 ≤ (writeString s).length := by
  rw [writeString, List.length_cons]
  omega

/-- The members of an object are read back if each of their values is. -/
theorem members_writeMembers {ms : List (Option String × Json)} (hne : ms ≠ [])
    (hkeys : ∀ m ∈ ms, m.1.isSome = true) (hread : ∀ m ∈ ms, ReadsBack m.2) {fuel : Nat}
    (hfuel : 2 * (writeMembers ms).length ≤ fuel) (rest : List Char) :
    members fuel (writeMembers ms ++ '\x7d' :: rest) = some (ms, rest) := by
  induction ms generalizing fuel with
  | nil => exact absurd rfl hne
  | cons m ms ih =>
    obtain ⟨key, v⟩ := m
    obtain ⟨key, rfl⟩ := Option.isSome_iff_exists.mp (hkeys _ List.mem_cons_self)
    have hpos := length_writeString_pos key
    have hv : ReadsBack v := hread _ List.mem_cons_self
    cases ms with
    | nil =>
      rw [writeMembers, Option.getD_some] at hfuel ⊢
      rw [List.length_append, List.length_cons] at hfuel
      rw [List.append_assoc, List.cons_append]
      obtain ⟨fuel, rfl⟩ : ∃ f, fuel = f + 1 := ⟨fuel - 1, by omega⟩
      exact members_last (hv fuel _ (by omega) (endsValue_cons (by decide) _))
    | cons n ns =>
      rw [writeMembers_cons_cons, Option.getD_some] at hfuel ⊢
      rw [List.length_append, List.length_cons, List.length_append, List.length_cons] at hfuel
      rw [List.append_assoc, List.cons_append, List.append_assoc, List.cons_append]
      obtain ⟨fuel, rfl⟩ : ∃ f, fuel = f + 1 := ⟨fuel - 1, by omega⟩
      refine members_next (hv fuel _ (by omega) (endsValue_cons (by decide) _)) ?_
      exact ih (List.cons_ne_nil n ns) (fun u hu => hkeys u (List.mem_cons_of_mem _ hu))
        (fun u hu => hread u (List.mem_cons_of_mem _ hu)) (by omega)

/-! ### Values -/

theorem value_string (fuel : Nat) (s : String) (rest : List Char) :
    value (fuel + 1) (writeString s ++ rest) = some (ofString s, rest) := by
  rw [writeString, List.cons_append, value, skipSpace_cons (by decide)]
  simp only [stringBody_writeString, Option.map_some]
  rfl

/-- An array with an item. -/
theorem value_array {fuel : Nat} {cs rest : List Char} {vs : List Json} (hstart : StartsValue cs)
    (h : items fuel cs = some (vs, rest)) :
    value (fuel + 1) ('[' :: cs) = some (array vs, rest) := by
  obtain ⟨c, cs, rfl, hspace, hc⟩ := hstart
  rw [value, skipSpace_cons (by decide)]
  simp only [skipSpace_cons hspace, h, Option.map_some]
  split
  case h_1 heq =>
    cases heq
    exact absurd rfl hc
  case h_2 => rfl

/-- An object with a member, which starts with the quote of its key. -/
theorem value_object {fuel : Nat} {cs rest : List Char} {ms : List (Option String × Json)}
    (h : members fuel ('"' :: cs) = some (ms, rest)) :
    value (fuel + 1) ('\x7b' :: '"' :: cs) = some (object ms, rest) := by
  rw [value, skipSpace_cons (by decide)]
  simp only [skipSpace_cons (c := '"') (by decide), h, Option.map_some]
  rfl

theorem writeItems_startsValue {v : Json} (h : StartsValue v.write) (vs : List Json)
    (rest : List Char) : StartsValue (writeItems (v :: vs) ++ rest) := by
  obtain ⟨c, cs, hwrite, hc⟩ := h
  cases vs with
  | nil =>
    rw [writeItems, hwrite]
    exact ⟨c, _, rfl, hc⟩
  | cons w ws =>
    rw [writeItems_cons_cons, hwrite]
    exact ⟨c, _, rfl, hc⟩

theorem exists_writeMembers_eq_cons (m : Option String × Json) (ms : List (Option String × Json)) :
    ∃ cs, writeMembers (m :: ms) = '"' :: cs := by
  obtain ⟨key, v⟩ := m
  cases ms with
  | nil => exact ⟨_, by rw [writeMembers, writeString, List.cons_append]⟩
  | cons n ns => exact ⟨_, by rw [writeMembers_cons_cons, writeString, List.cons_append]⟩

/-- A value inside a document is read back. -/
theorem Writable.readsBack {v : Json} (h : Writable v) : ReadsBack v := by
  have hpos := h.startsValue.length_pos
  induction h with
  | null => exact readsBack_of_succ hpos fun _ _ _ _ => rfl
  | bool b => cases b <;> exact readsBack_of_succ hpos fun _ _ _ _ => rfl
  | number h => exact readsBack_number h
  | string s =>
    refine readsBack_of_succ hpos fun fuel rest _ _ => ?_
    rw [ofString, write, Option.getD_some]
    exact value_string fuel s rest
  | @array vs hvs ih =>
    refine readsBack_of_succ hpos fun fuel rest hfuel _ => ?_
    rw [write] at hfuel ⊢
    cases vs with
    | nil => rfl
    | cons w ws =>
      have hitems : items fuel (writeItems (w :: ws) ++ ']' :: rest) = some (w :: ws, rest) := by
        refine items_writeItems (List.cons_ne_nil w ws) hvs
          (fun u hu => ih u hu (hvs u hu).startsValue.length_pos) ?_ rest
        rw [List.length_cons, List.length_append] at hfuel
        omega
      have hstart := (hvs w List.mem_cons_self).startsValue
      have harray := value_array (writeItems_startsValue hstart ws _) hitems
      simpa using harray
  | @object ms hkeys hvalues ih =>
    refine readsBack_of_succ hpos fun fuel rest hfuel _ => ?_
    rw [write] at hfuel ⊢
    cases ms with
    | nil => rfl
    | cons n ns =>
      have hmembers : members fuel (writeMembers (n :: ns) ++ '\x7d' :: rest) =
          some (n :: ns, rest) := by
        refine members_writeMembers (List.cons_ne_nil n ns) hkeys
          (fun m hm => ih m hm (hvalues m hm).startsValue.length_pos) ?_ rest
        rw [List.length_cons, List.length_append] at hfuel
        omega
      obtain ⟨cs, hcs⟩ := exists_writeMembers_eq_cons n ns
      rw [hcs] at hmembers ⊢
      have hobject := value_object hmembers
      simpa using hobject

/-- The text of a value is read back. -/
theorem read?_text {v : Json} (h : Writable v) : read? v.text = some v := by
  have hvalue := h.readsBack (2 * v.write.length + 2) [] (by omega) endsValue_nil
  rw [List.append_nil] at hvalue
  rw [read?, text, String.toList_ofList, hvalue]
  rfl

end CommandBridge.Json
