import DesignTokens.Proofs.Json.Scalars
import DesignTokens.Proofs.OrderedMap
import DesignTokens.Proofs.Outcome

/-!
# Written values are read back

A JSON text is read as the value that it was written for (`read_render`), provided that the style
has the separators of JSON and leaves whole floating-point numbers their point
(`Style.IsReadable`), that no object of the value has a key twice (`IsKeyed`) and no whole number
too many digits.  Both hold of what is read (`isStorable_of_read`), so that a value that is not broken
can be written and read any number of times.
-/

namespace DesignTokens

namespace Json

/-! ## Values without repeated keys -/

mutual

/-- No object in the value has a key twice. -/
def IsKeyed : Json → Prop
  | list items => ItemsKeyed items
  | object fields => (OrderedMap.keys fields).Nodup ∧ FieldsKeyed fields
  | _ => True

/-- No object in one of the items has a key twice. -/
def ItemsKeyed : List Json → Prop
  | [] => True
  | item :: rest => IsKeyed item ∧ ItemsKeyed rest

/-- No object in the value of a field has a key twice. -/
def FieldsKeyed : List (String × Json) → Prop
  | [] => True
  | (_, value) :: rest => IsKeyed value ∧ FieldsKeyed rest

end

/-- The items of a list are looked at one by one. -/
lemma itemsKeyed_iff {items : List Json} : ItemsKeyed items ↔ ∀ item ∈ items, item.IsKeyed := by
  induction items with
  | nil => simp [ItemsKeyed]
  | cons item rest ih => simp [ItemsKeyed, ih]

/-- The fields of an object are looked at one by one. -/
lemma fieldsKeyed_iff {fields : List (String × Json)} :
    FieldsKeyed fields ↔ ∀ e ∈ fields, e.2.IsKeyed := by
  induction fields with
  | nil => simp [FieldsKeyed]
  | cons e rest ih => simp [FieldsKeyed, ih]

/-- The items of a list can be written one by one. -/
lemma areItemsWritable_iff {items : List Json} :
    areItemsWritable items = true ↔ ∀ item ∈ items, item.isWritable = true := by
  induction items with
  | nil => simp [areItemsWritable]
  | cons item rest ih => simp [areItemsWritable, ih]

/-- The fields of an object can be written one by one. -/
lemma areFieldsWritable_iff {fields : List (String × Json)} :
    areFieldsWritable fields = true ↔ ∀ e ∈ fields, e.2.isWritable = true := by
  induction fields with
  | nil => simp [areFieldsWritable]
  | cons e rest ih => simp [areFieldsWritable, ih]

/-- A value that can be written and read back. -/
structure IsStorable (j : Json) : Prop where
  keyed : j.IsKeyed
  writable : j.isWritable = true

/-- A list can be stored if its items can. -/
lemma isStorable_list {items : List Json} :
    (list items).IsStorable ↔ ∀ item ∈ items, item.IsStorable := by
  constructor
  · intro h item hitem
    exact ⟨itemsKeyed_iff.mp h.keyed item hitem, areItemsWritable_iff.mp h.writable item hitem⟩
  · intro h
    exact ⟨itemsKeyed_iff.mpr fun item hitem => (h item hitem).keyed,
      areItemsWritable_iff.mpr fun item hitem => (h item hitem).writable⟩

/-- An object can be stored if it has no key twice and the values of its fields can. -/
lemma isStorable_object {fields : List (String × Json)} :
    (object fields).IsStorable ↔
      (OrderedMap.keys fields).Nodup ∧ ∀ e ∈ fields, e.2.IsStorable := by
  constructor
  · intro h
    exact ⟨h.keyed.1, fun e he =>
      ⟨fieldsKeyed_iff.mp h.keyed.2 e he, areFieldsWritable_iff.mp h.writable e he⟩⟩
  · rintro ⟨hkeys, h⟩
    exact ⟨⟨hkeys, fieldsKeyed_iff.mpr fun e he => (h e he).keyed⟩,
      areFieldsWritable_iff.mpr fun e he => (h e he).writable⟩

/-! ## Readings -/

/-- Items that are read, and none of them broken, are a list. -/
lemma Found.ofItems_intact (items : List Json) :
    Found.ofItems (items.map fun value => { value }) = { value := .list items } := by
  have hintact : (items.map fun value => ({ value } : Found)).all Found.isIntact = true :=
    List.all_eq_true.mpr fun item hitem => by
      obtain ⟨value, -, rfl⟩ := List.mem_map.mp hitem
      rfl
  unfold Found.ofItems
  rw [hintact, List.map_map]
  exact congrArg (Found.mk · true) (congrArg Json.list (List.map_id items))

namespace Fields

variable {f : Fields} {fields : List (String × Json)}

/-- Fields of which nothing is broken have their values. -/
@[simp] lemma values_ofIntact (fields : List (String × Json)) : (ofIntact fields).values = fields := by
  unfold values ofIntact
  rw [List.map_map]
  exact List.map_id fields

/-- Of fields of which nothing is broken there is nothing broken. -/
@[simp] lemma isIntact_ofIntact (fields : List (String × Json)) :
    (ofIntact fields).isIntact = true := by
  unfold isIntact ofIntact
  simp

/-- Fields are known by their values if nothing is broken. -/
lemma eq_ofIntact (h : f.isIntact = true) : f = ofIntact f.values := by
  obtain ⟨entries, hasBrokenKey⟩ := f
  unfold isIntact at h
  rw [Bool.and_eq_true, Bool.not_eq_true'] at h
  obtain ⟨rfl, hall⟩ := h
  have hentries : entries = (entries.map fun e => (e.1, e.2.value)).map fun e =>
      (e.1, ({ value := e.2 } : Found)) := by
    rw [List.map_map]
    refine ((List.map_congr_left fun e he => ?_).trans (List.map_id entries)).symm
    have hintact := List.all_eq_true.mp hall e he
    obtain ⟨key, value, isIntact⟩ := e
    exact Prod.ext rfl (congrArg (Found.mk value) hintact.symm)
  exact congrArg (Fields.mk · false) hentries

/-- The fields that are not broken are those of which nothing is. -/
lemma intact?_eq_some : f.intact? = some fields ↔ f = ofIntact fields := by
  unfold intact?
  constructor
  · intro h
    split_ifs at h with hintact
    exact Option.some.inj h ▸ eq_ofIntact hintact
  · rintro rfl
    rw [isIntact_ofIntact, values_ofIntact, if_pos rfl]

/-- There are no fields exactly if something is broken. -/
lemma intact?_eq_none : f.intact? = none ↔ f.isIntact = false := by
  unfold intact?
  cases f.isIntact <;> simp

/-- The object of fields of which nothing is broken. -/
@[simp] lemma found_ofIntact (fields : List (String × Json)) :
    (ofIntact fields).found = { value := .object fields } := by
  unfold found
  rw [values_ofIntact, isIntact_ofIntact]
  rfl

/-- Fields that are read with different keys, and none of them broken, stay as they are. -/
lemma ofEntries_intact (hkeys : (OrderedMap.keys fields).Nodup) :
    ofEntries (fields.map fun e => (some e.1, { value := e.2 })) = ofIntact fields := by
  have hentries : (fields.map fun e => (some e.1, ({ value := e.2 } : Found))).filterMap
      (fun e : Option String × Found => e.1.map (·, e.2)) =
        fields.map fun e => (e.1, { value := e.2 }) := by
    rw [List.filterMap_map]
    exact congrFun List.filterMap_eq_map fields
  have hbroken : (fields.map fun e => (some e.1, ({ value := e.2 } : Found))).any
      (fun e : Option String × Found => e.1.isNone) = false := by
    simp
  have hfound : (OrderedMap.keys (fields.map fun e => (e.1, ({ value := e.2 } : Found)))).Nodup := by
    unfold OrderedMap.keys
    rw [List.map_map]
    exact hkeys
  unfold ofEntries ofIntact
  rw [hentries, hbroken, OrderedMap.ofList_of_nodup hfound]

/-- Fields with different keys whose values can be stored. -/
structure IsStorable (f : Fields) : Prop where
  keys : f.entries.keys.Nodup
  values : ∀ e ∈ f.entries, e.2.value.IsStorable

/-- The values of fields that can be stored. -/
lemma IsStorable.object (h : f.IsStorable) : (Json.object f.values).IsStorable := by
  refine isStorable_object.mpr ⟨?_, fun e he => ?_⟩
  · unfold Fields.values OrderedMap.keys
    rw [List.map_map]
    exact h.keys
  · obtain ⟨entry, hentry, rfl⟩ := List.mem_map.mp he
    exact h.values entry hentry

/-- Fields that are not broken are those of an object that can be stored. -/
lemma IsStorable.of_intact? (h : f.IsStorable) (hf : f.intact? = some fields) :
    (Json.object fields).IsStorable := by
  have hvalues := h.object
  rwa [intact?_eq_some.mp hf, values_ofIntact] at hvalues

/-- Fields that can be stored are read as an object that can be. -/
lemma IsStorable.found (h : f.IsStorable) : f.found.value.IsStorable := by
  have hobject := h.object
  unfold Fields.found
  split_ifs
  · obtain ⟨hkeys, hvalues⟩ := isStorable_object.mp hobject
    refine isStorable_object.mpr ⟨OrderedMap.nodup_keys_set hkeys, fun e he => ?_⟩
    rcases OrderedMap.mem_of_mem_set he with rfl | hold
    · exact ⟨⟨trivial, trivial⟩, rfl⟩
    · exact hvalues e hold
  · exact hobject

end Fields

namespace Reading

/-- A value as it is read. -/
def ofJson : Json → Reading
  | .object fields => .object (.ofIntact fields)
  | value => .other { value }

/-- A value is not broken when it is read. -/
@[simp] lemma found_ofJson (value : Json) : (ofJson value).found = { value } := by
  cases value with
  | object fields => exact Fields.found_ofIntact fields
  | null | bool | int | float | text | list => rfl

end Reading

/-! ## Blanks -/

/-- Blanks in front of something else are skipped. -/
lemma skipBlanks_append {blanks : List Char} (hblanks : ∀ c ∈ blanks, isBlank c = true) {c : Char}
    (hc : isBlank c = false) (rest : List Char) : skipBlanks (blanks ++ c :: rest) = c :: rest := by
  refine dropWhile_run hblanks fun d hd => ?_
  cases hd
  exact hc

/-- Where nothing is to be skipped the text stays. -/
lemma skipBlanks_cons {c : Char} (hc : isBlank c = false) (rest : List Char) :
    skipBlanks (c :: rest) = c :: rest := by
  have hnone : ∀ d ∈ ([] : List Char), isBlank d = true := fun _ h => (List.not_mem_nil h).elim
  exact skipBlanks_append hnone hc rest

/-- Blanks in front of something that ends a number end one. -/
lemma endsNumber_append {blanks : List Char} (hblanks : ∀ c ∈ blanks, isBlank c = true)
    {rest : List Char} (hrest : EndsNumber rest) : EndsNumber (blanks ++ rest) := by
  cases blanks with
  | nil => exact hrest
  | cons c more =>
    intro d hd
    obtain rfl : c = d := Option.some.inj hd
    have hblank := hblanks c List.mem_cons_self
    unfold isBlank at hblank
    simp only [Bool.or_eq_true, beq_iff_eq] at hblank
    rcases hblank with ((rfl | rfl) | rfl) | rfl <;> decide

/-! ## Reading values, items and fields -/

/-- A text is read as a value, whatever follows that does not go on with a number. -/
def Reads (text : List Char) (j : Json) : Prop :=
  (∃ c more, text = c :: more ∧ isBlank c = false ∧ c ≠ ']') ∧
    ∀ fuel rest, text.length ≤ fuel → EndsNumber rest →
      readValue fuel (text ++ rest) = .ok (Reading.ofJson j, rest)

/-- A constant or a number is read as a value. -/
lemma Reads.of_scalar {text : List Char} {j : Json} (h : ReadsScalar text j)
    (hj : Reading.ofJson j = .other { value := j }) : Reads text j := by
  obtain ⟨⟨c, more, rfl, hblank, hbegins⟩, hread⟩ := h
  have hne : ∀ d ∈ ['"', '[', ']', '\x7b', '\x7d'], c ≠ d := fun d hd heq => hbegins (heq ▸ hd)
  refine ⟨⟨c, more, rfl, hblank, hne _ (by decide)⟩, fun fuel rest hfuel hrest => ?_⟩
  obtain ⟨fuel, rfl⟩ : ∃ n, fuel = n + 1 :=
    ⟨fuel - 1, by rw [List.length_cons] at hfuel; omega⟩
  have hscalar := hread rest hrest
  rw [List.cons_append] at hscalar ⊢
  unfold readValue
  split
  · exact absurd (List.cons.inj ‹_›).1 (hne '"' (by decide))
  · exact absurd (List.cons.inj ‹_›).1 (hne '[' (by decide))
  · exact absurd (List.cons.inj ‹_›).1 (hne '\x7b' (by decide))
  · rw [hscalar, hj]
    rfl

/-- A written text is read as a value. -/
lemma Reads.text (s : String) : Reads (stringText s).toList (.text s) := by
  refine ⟨⟨'"', _, toList_stringText s, rfl, by decide⟩, fun fuel rest hfuel _ => ?_⟩
  obtain ⟨fuel, rfl⟩ : ∃ n, fuel = n + 1 := by
    rw [toList_stringText, List.length_cons] at hfuel
    exact ⟨fuel - 1, by omega⟩
  obtain ⟨code, hcode, hread⟩ := readString_stringText hfuel rest
  rw [hcode, List.cons_append, readValue, hread]
  show Except.ok (Reading.other { value := Json.text (String.ofList s.toList) }, rest) = _
  rw [String.ofList_toList]
  rfl

section joined

variable {between after : List Char}

/-- A text that is joined with others begins the whole. -/
lemma intercalate_begins (separator : List Char) (c : Char) (more : List Char)
    (texts : List (List Char)) :
    ∃ later, separator.intercalate ((c :: more) :: texts) = c :: later := by
  cases texts with
  | nil => exact ⟨more, List.intercalate_singleton⟩
  | cons second texts => exact ⟨_, List.intercalate_cons_cons⟩

/-- Blanks in front of joined texts are skipped. -/
lemma skipBlanks_intercalate (hbetween : ∀ c ∈ between, isBlank c = true) (separator : List Char)
    {text : List Char} (htext : ∃ c more, text = c :: more ∧ isBlank c = false)
    (texts : List (List Char)) (rest : List Char) :
    skipBlanks (between ++ (separator.intercalate (text :: texts) ++ rest)) =
      separator.intercalate (text :: texts) ++ rest := by
  obtain ⟨c, more, rfl, hc⟩ := htext
  obtain ⟨later, hjoined⟩ := intercalate_begins separator c more texts
  rw [hjoined]
  exact skipBlanks_append hbetween hc _

/-- The last item of a list is followed by its closing bracket. -/
lemma readItems_last (hafter : ∀ c ∈ after, isBlank c = true) {fuel : ℕ} {cs rest : List Char}
    {item : Json} (h : readValue fuel cs = .ok (Reading.ofJson item, after ++ ']' :: rest)) :
    readItems (fuel + 1) cs = .ok ([{ value := item }], rest) := by
  rw [readItems, bind_of_ok h]
  dsimp only
  rw [skipBlanks_append hafter (by decide), Reading.found_ofJson]
  rfl

/-- Behind a comma the items of a list go on. -/
lemma readItems_more {fuel : ℕ} {cs rest rest' : List Char} {item : Json} {items : List Found}
    (h : readValue fuel cs = .ok (Reading.ofJson item, ',' :: rest))
    (hmore : readItems fuel (skipBlanks rest) = .ok (items, rest')) :
    readItems (fuel + 1) cs = .ok ({ value := item } :: items, rest') := by
  rw [readItems, bind_of_ok h]
  dsimp only
  rw [skipBlanks_cons (by decide), Reading.found_ofJson]
  show (readItems fuel (skipBlanks rest) >>= _) = _
  rw [bind_of_ok hmore]
  rfl

/-- Texts that are read as values, joined by commas, are read as the items of a list. -/
lemma readItems_intercalate (hbetween : ∀ c ∈ between, isBlank c = true)
    (hafter : ∀ c ∈ after, isBlank c = true) {texts : List (List Char)} {items : List Json}
    (h : List.Forall₂ Reads texts items) (hne : texts ≠ []) {fuel : ℕ}
    (hfuel : ((',' :: between).intercalate texts).length < fuel) (rest : List Char) :
    readItems fuel ((',' :: between).intercalate texts ++ (after ++ ']' :: rest)) =
      .ok (items.map fun value => { value }, rest) := by
  induction h generalizing fuel with
  | nil => exact absurd rfl hne
  | @cons text item texts items hfirst hlater ih =>
    obtain ⟨fuel, rfl⟩ : ∃ n, fuel = n + 1 := ⟨fuel - 1, by omega⟩
    obtain ⟨-, hread⟩ := hfirst
    cases hlater with
    | nil =>
      have hends : EndsNumber (after ++ ']' :: rest) :=
        endsNumber_append hafter fun c hc => by cases hc; decide
      rw [List.intercalate_singleton] at hfuel ⊢
      exact readItems_last hafter (hread fuel _ (by omega) hends)
    | @cons second item' texts items hsecond hlater =>
      rw [List.intercalate_cons_cons] at hfuel ⊢
      rw [List.length_append, List.length_append, List.length_cons] at hfuel
      have hends : EndsNumber (',' :: (between ++ ((',' :: between).intercalate (second :: texts) ++
          (after ++ ']' :: rest)))) := fun c hc => by cases hc; decide
      obtain ⟨⟨c, more, hbegins, hblank, -⟩, -⟩ := hsecond
      rw [List.append_assoc, List.append_assoc, List.cons_append]
      refine readItems_more (hread fuel _ (by omega) hends) ?_
      rw [skipBlanks_intercalate hbetween _ ⟨c, more, hbegins, hblank⟩]
      exact ih (List.cons_ne_nil _ _) (by omega)

/-- A text is read as a field: its key, a colon and its value. -/
def ReadsField (text : List Char) (e : String × Json) : Prop :=
  ∃ gap value, (∀ c ∈ gap, isBlank c = true) ∧ Reads value e.2 ∧
    text = (stringText e.1).toList ++ ':' :: (gap ++ value)

/-- A field begins with the quote of its key. -/
lemma ReadsField.begins {text : List Char} {e : String × Json} (h : ReadsField text e) :
    ∃ more, text = '"' :: more := by
  obtain ⟨gap, value, -, -, rfl⟩ := h
  rw [toList_stringText]
  exact ⟨_, rfl⟩

/-- The key and the value of a field are read before whatever does not go on with a number. -/
lemma ReadsField.reads {text : List Char} {e : String × Json} (h : ReadsField text e) {fuel : ℕ}
    (hfuel : text.length ≤ fuel) {rest : List Char} (hrest : EndsNumber rest) :
    ∃ code behind, text ++ rest = '"' :: code ∧
      readString fuel code = some (some e.1.toList, ':' :: behind) ∧
      readValue fuel (skipBlanks behind) = .ok (Reading.ofJson e.2, rest) := by
  obtain ⟨gap, value, hgap, ⟨⟨c, more, hbegins, hblank, -⟩, hread⟩, rfl⟩ := h
  rw [List.length_append, List.length_cons, List.length_append] at hfuel
  have hkeyFuel : (stringText e.1).toList.length ≤ fuel + 1 := by omega
  obtain ⟨code, hcode, hkey⟩ :=
    readString_stringText hkeyFuel (':' :: (gap ++ (value ++ rest)))
  refine ⟨_, _, ?_, hkey, ?_⟩
  · rw [hcode, List.append_assoc, List.cons_append, List.cons_append, List.append_assoc]
  · have hskip : skipBlanks (gap ++ (value ++ rest)) = value ++ rest := by
      rw [hbegins]
      exact skipBlanks_append hgap hblank _
    rw [hskip]
    exact hread fuel rest (by omega) hrest

section step

variable {fuel : ℕ} {key : String} {value : Json} {code behind rest : List Char}

/-- A field is read up to the end of its value. -/
lemma readFields_step {chars : List Char} {r : Reading}
    (hkey : readString fuel code = some (some chars, ':' :: behind))
    (hvalue : readValue fuel (skipBlanks behind) = .ok (r, rest)) :
    readFields (fuel + 1) ('"' :: code) = (match skipBlanks rest with
      | '\x7d' :: rest => return ([(some (String.ofList chars), r.found)], rest)
      | ',' :: rest => do
        let (fields, rest) ← readFields fuel (skipBlanks rest)
        return ((some (String.ofList chars), r.found) :: fields, rest)
      | _ => .error .malformed) := by
  have hexpected : expected (readString fuel code) = .ok (some chars, ':' :: behind) := by
    rw [hkey]
    rfl
  rw [readFields]
  dsimp only
  rw [bind_of_ok hexpected]
  dsimp only
  rw [skipBlanks_cons (by decide)]
  exact bind_of_ok hvalue _

/-- The last field of an object is followed by its closing brace. -/
lemma readFields_last (hafter : ∀ c ∈ after, isBlank c = true)
    (hkey : readString fuel code = some (some key.toList, ':' :: behind))
    (hvalue : readValue fuel (skipBlanks behind) =
      .ok (Reading.ofJson value, after ++ '\x7d' :: rest)) :
    readFields (fuel + 1) ('"' :: code) = .ok ([(some key, { value })], rest) := by
  rw [readFields_step hkey hvalue, Reading.found_ofJson, String.ofList_toList,
    skipBlanks_append hafter (by decide)]
  rfl

/-- Behind a comma the fields of an object go on. -/
lemma readFields_more {rest' : List Char} {fields : List (Option String × Found)}
    (hkey : readString fuel code = some (some key.toList, ':' :: behind))
    (hvalue : readValue fuel (skipBlanks behind) = .ok (Reading.ofJson value, ',' :: rest))
    (hmore : readFields fuel (skipBlanks rest) = .ok (fields, rest')) :
    readFields (fuel + 1) ('"' :: code) = .ok ((some key, { value }) :: fields, rest') := by
  rw [readFields_step hkey hvalue, Reading.found_ofJson, String.ofList_toList,
    skipBlanks_cons (by decide)]
  show (readFields fuel (skipBlanks rest) >>= _) = _
  rw [bind_of_ok hmore]
  rfl

end step

/-- Texts that are read as fields, joined by commas, are read as the fields of an object. -/
lemma readFields_intercalate (hbetween : ∀ c ∈ between, isBlank c = true)
    (hafter : ∀ c ∈ after, isBlank c = true) {texts : List (List Char)}
    {fields : List (String × Json)} (h : List.Forall₂ ReadsField texts fields) (hne : texts ≠ [])
    {fuel : ℕ} (hfuel : ((',' :: between).intercalate texts).length < fuel) (rest : List Char) :
    readFields fuel ((',' :: between).intercalate texts ++ (after ++ '\x7d' :: rest)) =
      .ok (fields.map fun e => (some e.1, { value := e.2 }), rest) := by
  induction h generalizing fuel with
  | nil => exact absurd rfl hne
  | @cons text e texts fields hfirst hlater ih =>
    obtain ⟨fuel, rfl⟩ : ∃ n, fuel = n + 1 := ⟨fuel - 1, by omega⟩
    cases hlater with
    | nil =>
      have hends : EndsNumber (after ++ '\x7d' :: rest) :=
        endsNumber_append hafter fun c hc => by cases hc; decide
      rw [List.intercalate_singleton] at hfuel ⊢
      have hfirstFuel : text.length ≤ fuel := by omega
      obtain ⟨code, behind, hchars, hkey, hvalue⟩ := hfirst.reads hfirstFuel hends
      rw [hchars]
      exact readFields_last hafter hkey hvalue
    | @cons second e' texts fields hsecond hlater =>
      rw [List.intercalate_cons_cons] at hfuel ⊢
      rw [List.length_append, List.length_append, List.length_cons] at hfuel
      have hends : EndsNumber (',' :: (between ++ ((',' :: between).intercalate (second :: texts) ++
          (after ++ '\x7d' :: rest)))) := fun c hc => by cases hc; decide
      obtain ⟨more, hbegins⟩ := hsecond.begins
      have hfirstFuel : text.length ≤ fuel := by omega
      obtain ⟨code, behind, hchars, hkey, hvalue⟩ := hfirst.reads hfirstFuel hends
      rw [List.append_assoc, List.append_assoc, List.cons_append, hchars]
      refine readFields_more hkey hvalue ?_
      rw [skipBlanks_intercalate hbetween _ ⟨'"', more, hbegins, by decide⟩]
      exact ih (List.cons_ne_nil _ _) (by omega)

end joined

/-! ## Lists and objects -/

/-- An empty list is read. -/
lemma Reads.list_nil : Reads ['[', ']'] (.list []) := by
  refine ⟨⟨'[', _, rfl, by decide⟩, fun fuel rest hfuel _ => ?_⟩
  obtain ⟨fuel, rfl⟩ : ∃ n, fuel = n + 1 := ⟨fuel - 1, by rw [List.length_cons] at hfuel; omega⟩
  rfl

/-- An empty object is read. -/
lemma Reads.object_nil : Reads ['\x7b', '\x7d'] (.object []) := by
  refine ⟨⟨'\x7b', _, rfl, by decide⟩, fun fuel rest hfuel _ => ?_⟩
  obtain ⟨fuel, rfl⟩ : ∃ n, fuel = n + 1 := ⟨fuel - 1, by rw [List.length_cons] at hfuel; omega⟩
  rfl

section enclosed

variable {before between after : List Char} {texts : List (List Char)}

/-- Written items between brackets are read as a list. -/
lemma Reads.list (hbefore : ∀ c ∈ before, isBlank c = true)
    (hbetween : ∀ c ∈ between, isBlank c = true) (hafter : ∀ c ∈ after, isBlank c = true)
    {items : List Json} (h : List.Forall₂ Reads texts items) (hne : texts ≠ []) :
    Reads ('[' :: (before ++ ((',' :: between).intercalate texts ++ (after ++ [']']))))
      (.list items) := by
  refine ⟨⟨'[', _, rfl, by decide⟩, fun fuel rest hfuel _ => ?_⟩
  simp only [List.length_cons, List.length_append, List.length_nil] at hfuel
  obtain ⟨fuel, rfl⟩ : ∃ n, fuel = n + 1 := ⟨fuel - 1, by omega⟩
  have hitemsFuel : ((',' :: between).intercalate texts).length < fuel := by omega
  have hitems := readItems_intercalate hbetween hafter h hne hitemsFuel rest
  cases h with
  | nil => exact absurd rfl hne
  | @cons text item texts items hfirst hlater =>
    obtain ⟨⟨c, more, rfl, hblank, hbracket⟩, -⟩ := hfirst
    obtain ⟨later, hjoined⟩ := intercalate_begins (',' :: between) c more texts
    rw [hjoined] at hitems ⊢
    have hchars : '[' :: (before ++ (c :: later ++ (after ++ [']']))) ++ rest =
        '[' :: (before ++ c :: (later ++ (after ++ ']' :: rest))) := by simp
    rw [hchars, readValue, skipBlanks_append hbefore hblank]
    split
    · exact absurd (List.cons.inj ‹_›).1 hbracket
    · show (readItems fuel (c :: later ++ (after ++ ']' :: rest))).map _ = _
      rw [hitems]
      show Except.ok (Reading.other (Found.ofItems _), rest) = _
      rw [Found.ofItems_intact]
      rfl

/-- Written fields between braces are read as an object. -/
lemma Reads.object (hbefore : ∀ c ∈ before, isBlank c = true)
    (hbetween : ∀ c ∈ between, isBlank c = true) (hafter : ∀ c ∈ after, isBlank c = true)
    {fields : List (String × Json)} (h : List.Forall₂ ReadsField texts fields) (hne : texts ≠ [])
    (hkeys : (OrderedMap.keys fields).Nodup) :
    Reads ('\x7b' :: (before ++ ((',' :: between).intercalate texts ++ (after ++ ['\x7d']))))
      (.object fields) := by
  refine ⟨⟨'\x7b', _, rfl, by decide⟩, fun fuel rest hfuel _ => ?_⟩
  simp only [List.length_cons, List.length_append, List.length_nil] at hfuel
  obtain ⟨fuel, rfl⟩ : ∃ n, fuel = n + 1 := ⟨fuel - 1, by omega⟩
  have hfieldsFuel : ((',' :: between).intercalate texts).length < fuel := by omega
  have hfields := readFields_intercalate hbetween hafter h hne hfieldsFuel rest
  cases h with
  | nil => exact absurd rfl hne
  | @cons text e texts fields hfirst hlater =>
    obtain ⟨more, rfl⟩ := hfirst.begins
    obtain ⟨later, hjoined⟩ := intercalate_begins (',' :: between) '"' more texts
    rw [hjoined] at hfields ⊢
    have hchars : '\x7b' :: (before ++ ('"' :: later ++ (after ++ ['\x7d']))) ++ rest =
        '\x7b' :: (before ++ '"' :: (later ++ (after ++ '\x7d' :: rest))) := by simp
    rw [hchars, readValue, skipBlanks_append hbefore (by decide)]
    show (readFields fuel ('"' :: later ++ (after ++ '\x7d' :: rest))).map _ = _
    rw [hfields]
    show Except.ok (Reading.object (Fields.ofEntries _), rest) = _
    rw [Fields.ofEntries_intact hkeys]
    rfl

end enclosed

/-! ## Written values -/

/-- A style whose texts are JSON texts that keep apart whole numbers and floating-point numbers. -/
structure Style.IsReadable (style : Style) : Prop where
  items : ∃ spaces, style.itemSeparator.toList = ',' :: List.replicate spaces ' '
  keys : ∃ spaces, style.keySeparator.toList = ':' :: List.replicate spaces ' '
  numbers : style.wholeAsInt = false

/-- The style of files is readable. -/
lemma Style.isReadable_indented : Style.indented.IsReadable :=
  ⟨⟨0, by decide⟩, ⟨1, by decide⟩, rfl⟩

/-- A line begins with a line feed and spaces. -/
lemma mem_lineStart {width level : ℕ} {c : Char} (h : c ∈ (lineStart width level).toList) :
    c = '\n' ∨ c = ' ' := by
  unfold lineStart at h
  rw [String.toList_append] at h
  rcases List.mem_append.mp h with hfeed | hspace
  · exact Or.inl (List.mem_singleton.mp hfeed)
  · rw [String.toList_ofList] at hspace
    exact Or.inr (List.eq_of_mem_replicate hspace)

/-- What is enclosed is joined by commas, with line feeds and spaces behind the commas and at both
ends. -/
lemma toList_enclose {style : Style} (hstyle : style.IsReadable) (level : ℕ)
    (opening closing : String) {items : List String} (hne : items ≠ []) :
    ∃ before between after : List Char,
      (∀ c ∈ before ++ between ++ after, c = '\n' ∨ c = ' ') ∧
      (enclose style level opening closing items).toList = opening.toList ++ (before ++
        ((',' :: between).intercalate (items.map String.toList) ++ (after ++ closing.toList))) := by
  obtain ⟨spaces, hseparator⟩ := hstyle.items
  have hspaces : ∀ c ∈ List.replicate spaces ' ', c = '\n' ∨ c = ' ' :=
    fun c hc => Or.inr (List.eq_of_mem_replicate hc)
  have hempty : ¬ items.isEmpty = true := fun h => hne (List.isEmpty_iff.mp h)
  unfold enclose
  rw [if_neg hempty]
  cases style.indent with
  | none =>
    refine ⟨[], List.replicate spaces ' ', [], fun c hc => ?_, ?_⟩
    · rw [List.nil_append, List.append_nil] at hc
      exact hspaces c hc
    · dsimp only
      rw [String.toList_append, String.toList_append, String.toList_intercalate, hseparator]
      simp
  | some width =>
    refine ⟨(lineStart width (level + 1)).toList,
      List.replicate spaces ' ' ++ (lineStart width (level + 1)).toList,
      (lineStart width level).toList, fun c hc => ?_, ?_⟩
    · rcases List.mem_append.mp hc with hfront | hafter
      · rcases List.mem_append.mp hfront with hbefore | hbetween
        · exact mem_lineStart hbefore
        · exact (List.mem_append.mp hbetween).elim (hspaces c) mem_lineStart
      · exact mem_lineStart hafter
    · dsimp only
      rw [String.toList_append, String.toList_append, String.toList_append, String.toList_append,
        String.toList_intercalate, String.toList_append, hseparator]
      simp

/-- Line feeds and spaces are blanks. -/
lemma isBlank_of_line {c : Char} (h : c = '\n' ∨ c = ' ') : isBlank c = true := by
  rcases h with rfl | rfl <;> rfl

mutual

/-- A written value is read back. -/
theorem reads_write {style : Style} (hstyle : style.IsReadable) (level : ℕ) :
    ∀ j : Json, j.IsStorable → Reads (write style level j).toList j
  | .null, _ => by
    have hchars : (write style level .null).toList = ['n', 'u', 'l', 'l'] := by simp [write]
    rw [hchars]
    exact Reads.of_scalar ⟨⟨'n', _, rfl, by decide⟩, fun _ _ => rfl⟩ rfl
  | .bool true, _ => by
    have hchars : (write style level (.bool true)).toList = ['t', 'r', 'u', 'e'] := by simp [write]
    rw [hchars]
    exact Reads.of_scalar ⟨⟨'t', _, rfl, by decide⟩, fun _ _ => rfl⟩ rfl
  | .bool false, _ => by
    have hchars : (write style level (.bool false)).toList = ['f', 'a', 'l', 's', 'e'] := by
      simp [write]
    rw [hchars]
    exact Reads.of_scalar ⟨⟨'f', _, rfl, by decide⟩, fun _ _ => rfl⟩ rfl
  | .int n, hj => Reads.of_scalar (readsScalar_int (of_decide_eq_true hj.writable)) rfl
  | .float x, _ => by
    have htext : write style level (.float x) = Decimal.text "NaN" "Infinity" x := by
      unfold write floatText
      rw [hstyle.numbers]
    rw [htext]
    exact Reads.of_scalar (readsScalar_float x) rfl
  | .text s, _ => Reads.text s
  | .list [], _ => by
    have hchars : (write style level (.list [])).toList = ['[', ']'] := by
      simp [write, writeItems, enclose]
    rw [hchars]
    exact Reads.list_nil
  | .list (item :: rest), hj => by
    have hitems := reads_writeItems hstyle (level + 1) (item :: rest) (isStorable_list.mp hj)
    have hne : writeItems style (level + 1) (item :: rest) ≠ [] := List.cons_ne_nil _ _
    obtain ⟨before, between, after, hblank, htext⟩ := toList_enclose hstyle level "[" "]" hne
    rw [write, htext]
    exact Reads.list (fun c hc => isBlank_of_line (hblank c (by simp [hc])))
      (fun c hc => isBlank_of_line (hblank c (by simp [hc])))
      (fun c hc => isBlank_of_line (hblank c (by simp [hc]))) hitems (mt List.map_eq_nil_iff.mp hne)
  | .object [], _ => by
    have hchars : (write style level (.object [])).toList = ['\x7b', '\x7d'] := by
      simp [write, writeFields, enclose]
    rw [hchars]
    exact Reads.object_nil
  | .object (e :: rest), hj => by
    obtain ⟨hkeys, hvalues⟩ := isStorable_object.mp hj
    have hfields := reads_writeFields hstyle (level + 1) (e :: rest) hvalues
    have hne : writeFields style (level + 1) (e :: rest) ≠ [] := List.cons_ne_nil _ _
    obtain ⟨before, between, after, hblank, htext⟩ :=
      toList_enclose hstyle level "\x7b" "\x7d" hne
    rw [write, htext]
    exact Reads.object (fun c hc => isBlank_of_line (hblank c (by simp [hc])))
      (fun c hc => isBlank_of_line (hblank c (by simp [hc])))
      (fun c hc => isBlank_of_line (hblank c (by simp [hc]))) hfields
      (mt List.map_eq_nil_iff.mp hne) hkeys

/-- Written items are read back. -/
theorem reads_writeItems {style : Style} (hstyle : style.IsReadable) (level : ℕ) :
    ∀ items : List Json, (∀ item ∈ items, item.IsStorable) →
    List.Forall₂ Reads ((writeItems style level items).map String.toList) items
  | [], _ => .nil
  | item :: rest, hitems =>
    .cons (reads_write hstyle level item (hitems item List.mem_cons_self))
      (reads_writeItems hstyle level rest fun other h => hitems other (List.mem_cons_of_mem _ h))

/-- Written fields are read back. -/
theorem reads_writeFields {style : Style} (hstyle : style.IsReadable) (level : ℕ) :
    ∀ fields : List (String × Json), (∀ e ∈ fields, e.2.IsStorable) →
    List.Forall₂ ReadsField ((writeFields style level fields).map String.toList) fields
  | [], _ => .nil
  | (key, value) :: rest, hvalues => by
    obtain ⟨spaces, hseparator⟩ := hstyle.keys
    have hgap : ∀ c ∈ List.replicate spaces ' ', isBlank c = true :=
      fun c hc => isBlank_of_line (Or.inr (List.eq_of_mem_replicate hc))
    refine .cons ⟨_, _, hgap, reads_write hstyle level value (hvalues _ List.mem_cons_self), ?_⟩
      (reads_writeFields hstyle level rest fun e h => hvalues e (List.mem_cons_of_mem _ h))
    rw [String.toList_append, String.toList_append, hseparator, List.append_assoc, List.cons_append]

end

/-- A text of a value, with blanks behind it, is read as the value. -/
theorem read_render {style : Style} (hstyle : style.IsReadable) {j : Json} (hj : j.IsStorable)
    {after : String} (hafter : ∀ c ∈ after.toList, isBlank c = true) :
    read (render style j ++ after) = .ok (Reading.ofJson j) := by
  obtain ⟨⟨c, more, hbegins, hblank, -⟩, hread⟩ := reads_write hstyle 0 j hj
  have hskip : skipBlanks ((write style 0 j).toList ++ after.toList) =
      (write style 0 j).toList ++ after.toList := by
    rw [hbegins]
    exact skipBlanks_cons hblank _
  have hends : EndsNumber after.toList := by
    have hnone : EndsNumber [] := fun c hc => by cases hc
    have hall := endsNumber_append hafter hnone
    rwa [List.append_nil] at hall
  have hnothing : skipBlanks after.toList = [] := List.dropWhile_eq_nil_iff.mpr hafter
  unfold read render
  dsimp only
  rw [String.toList_append, hskip,
    bind_of_ok (hread _ _ (by rw [List.length_append]; omega) hends)]
  dsimp only
  rw [hnothing]
  rfl

/-! ## Values that are read -/

/-- What has been read can be stored. -/
def Reading.IsStorable : Reading → Prop
  | object fields => fields.IsStorable
  | other found => found.value.IsStorable

/-- The value that has been read can be stored. -/
lemma Reading.IsStorable.found {r : Reading} (h : r.IsStorable) : r.found.value.IsStorable := by
  cases r with
  | object fields => exact Fields.IsStorable.found h
  | other found => exact h

/-- What is asked for by the grammar and found has been there. -/
lemma expected_eq_ok {α : Type} {o : Option α} {a : α} : expected o = .ok a ↔ o = some a := by
  cases o with
  | none => exact ⟨nofun, nofun⟩
  | some found => exact ⟨fun h => congrArg some (Except.ok.inj h), fun h => congrArg _ (Option.some.inj h)⟩

/-- The number that digits spell has at most as many digits. -/
lemma length_digitsOf_natOfDigits {digits : List Char} (hdigits : ∀ c ∈ digits, c.isDigit = true)
    (hne : digits ≠ []) :
    (Decimal.digitsOf (Decimal.natOfDigits digits)).length ≤ digits.length :=
  (Nat.length_toDigits_le_iff (by decide) (List.length_pos_iff.mpr hne)).mpr
    (Decimal.natOfDigits_lt hdigits)

/-- The whole part of a number is made of digits. -/
lemma isDigit_of_readWhole {cs whole rest : List Char} (h : readWhole cs = some (whole, rest)) :
    (∀ c ∈ whole, c.isDigit = true) ∧ whole ≠ [] := by
  unfold readWhole at h
  split at h
  · cases h
    exact ⟨List.forall_mem_singleton.mpr rfl, List.cons_ne_nil _ _⟩
  · unfold readDigits at h
    dsimp only at h
    split_ifs at h with hempty
    cases h
    exact ⟨fun c hc => List.mem_takeWhile_imp hc, fun hnil => hempty (List.isEmpty_iff.mpr hnil)⟩

/-- A constant or a number can be stored. -/
lemma isStorable_of_readScalar {cs rest : List Char} {j : Json}
    (h : readScalar cs = .ok (j, rest)) : j.IsStorable := by
  have hmagnitude : ∀ negative cs, readMagnitude negative cs = .ok (j, rest) → j.IsStorable := by
    intro negative cs h
    obtain ⟨⟨whole, after⟩, hwhole, h⟩ := bind_eq_ok.mp h
    obtain ⟨hdigits, hne⟩ := isDigit_of_readWhole (expected_eq_ok.mp hwhole)
    unfold readBehind at h
    dsimp only at h
    split at h
    · rw [ite_eq_iff'] at h
      have hlength : ¬ Decimal.maxDigits < whole.length := fun hlong => by cases h.1 hlong
      have hshort := (length_digitsOf_natOfDigits hdigits hne).trans (Nat.not_lt.mp hlength)
      cases h.2 hlength
      refine ⟨trivial, decide_eq_true ?_⟩
      cases negative with
      | false => exact hshort
      | true =>
        rw [if_pos rfl, Int.natAbs_neg]
        exact hshort
    · cases h
      exact ⟨trivial, rfl⟩
  unfold readScalar at h
  split at h
  case h_6 =>
    split at h
    · cases h
      exact ⟨trivial, rfl⟩
    · exact hmagnitude _ _ h
  case h_7 => exact hmagnitude _ _ h
  all_goals
    obtain ⟨_, -, h⟩ := map_eq_ok.mp h
    cases h
    exact ⟨trivial, rfl⟩

/-- What is read in a number of steps can be stored. -/
structure ReadsStorable (fuel : ℕ) : Prop where
  value : ∀ {cs r rest}, readValue fuel cs = .ok (r, rest) → r.IsStorable
  items : ∀ {cs items rest}, readItems fuel cs = .ok (items, rest) →
    ∀ item ∈ items, item.value.IsStorable
  fields : ∀ {cs entries rest}, readFields fuel cs = .ok (entries, rest) →
    ∀ e ∈ entries, e.2.value.IsStorable

section storable

variable {fuel : ℕ} {cs rest : List Char}

/-- A text that is read can be stored. -/
lemma Found.isStorable_ofText (s : Option (List Char)) : (Found.ofText s).value.IsStorable := by
  cases s with
  | none => exact ⟨⟨trivial, trivial⟩, rfl⟩
  | some cs => exact ⟨trivial, rfl⟩

/-- A list that is read can be stored if its items can. -/
lemma Found.isStorable_ofItems {items : List Found} (h : ∀ item ∈ items, item.value.IsStorable) :
    (Found.ofItems items).value.IsStorable := by
  refine isStorable_list.mpr fun value hvalue => ?_
  obtain ⟨item, hitem, rfl⟩ := List.mem_map.mp hvalue
  exact h item hitem

/-- Fields that are read one after the other can be stored if the value of each can. -/
lemma Fields.isStorable_ofEntries {entries : List (Option String × Found)}
    (h : ∀ e ∈ entries, e.2.value.IsStorable) : (Fields.ofEntries entries).IsStorable := by
  refine ⟨OrderedMap.nodup_keys_ofList _, fun e he => ?_⟩
  obtain ⟨entry, hentry, hfound⟩ := List.mem_filterMap.mp (OrderedMap.mem_of_mem_ofList he)
  obtain ⟨key, -, rfl⟩ := Option.map_eq_some_iff.mp hfound
  exact h entry hentry

/-- A value that is read can be stored if its items and fields can. -/
lemma ReadsStorable.readValue (h : ReadsStorable fuel) {r : Reading}
    (hread : Json.readValue (fuel + 1) cs = .ok (r, rest)) : r.IsStorable := by
  have hnone : ∀ item ∈ ([] : List Found), item.value.IsStorable :=
    fun item hitem => (List.not_mem_nil hitem).elim
  unfold Json.readValue at hread
  split at hread
  · obtain ⟨⟨s, after⟩, -, hread⟩ := map_eq_ok.mp hread
    cases hread
    exact Found.isStorable_ofText s
  · split at hread
    · cases hread
      exact Found.isStorable_ofItems hnone
    · obtain ⟨⟨items, after⟩, hitems, hread⟩ := map_eq_ok.mp hread
      cases hread
      exact Found.isStorable_ofItems (h.items hitems)
  · split at hread
    · cases hread
      exact ⟨List.nodup_nil, fun e he => (List.not_mem_nil he).elim⟩
    · obtain ⟨⟨entries, after⟩, hentries, hread⟩ := map_eq_ok.mp hread
      cases hread
      exact Fields.isStorable_ofEntries (h.fields hentries)
  · obtain ⟨⟨value, after⟩, hvalue, hread⟩ := map_eq_ok.mp hread
    cases hread
    exact isStorable_of_readScalar hvalue

/-- Items that are read can be stored if the first one and the others can. -/
lemma ReadsStorable.readItems (h : ReadsStorable fuel) {items : List Found}
    (hread : Json.readItems (fuel + 1) cs = .ok (items, rest)) :
    ∀ item ∈ items, item.value.IsStorable := by
  unfold Json.readItems at hread
  obtain ⟨⟨first, after⟩, hfirst, hread⟩ := bind_eq_ok.mp hread
  have hhead := (h.value hfirst).found
  dsimp only at hread
  split at hread
  · cases hread
    exact List.forall_mem_singleton.mpr hhead
  · obtain ⟨⟨more, after⟩, hmore, hread⟩ := bind_eq_ok.mp hread
    cases hread
    exact List.forall_mem_cons.mpr ⟨hhead, h.items hmore⟩
  · cases hread

/-- The values of fields that are read can be stored if the first one and the others can. -/
lemma ReadsStorable.readFields (h : ReadsStorable fuel) {entries : List (Option String × Found)}
    (hread : Json.readFields (fuel + 1) cs = .ok (entries, rest)) :
    ∀ e ∈ entries, e.2.value.IsStorable := by
  unfold Json.readFields at hread
  obtain ⟨⟨name, behind⟩, -, hread⟩ := bind_eq_ok.mp hread
  obtain ⟨start, -, hread⟩ := bind_eq_ok.mp hread
  obtain ⟨⟨value, after⟩, hvalue, hread⟩ := bind_eq_ok.mp hread
  have hhead := (h.value hvalue).found
  dsimp only at hread
  split at hread
  · cases hread
    exact List.forall_mem_singleton.mpr hhead
  · obtain ⟨⟨more, after⟩, hmore, hread⟩ := bind_eq_ok.mp hread
    cases hread
    exact List.forall_mem_cons.mpr ⟨hhead, h.fields hmore⟩
  · cases hread

end storable

/-- What is read can be stored. -/
lemma readsStorable (fuel : ℕ) : ReadsStorable fuel := by
  induction fuel with
  | zero => exact ⟨nofun, nofun, nofun⟩
  | succ fuel ih => exact ⟨ih.readValue, ih.readItems, ih.readFields⟩

/-- What is read from a text can be stored. -/
theorem isStorable_of_read {s : String} {r : Reading} (h : read s = .ok r) : r.IsStorable := by
  obtain ⟨⟨found, rest⟩, hread, h⟩ := bind_eq_ok.mp h
  dsimp only at h
  split_ifs at h
  cases h
  exact (readsStorable _).value hread

end Json

end DesignTokens
