import DesignTokens.Proofs.Design.Records

/-!
# Forms of a value

A value of a variable can be given in several forms, of which only one is written.  A value that is
read and written again is the same JSON value exactly if it was in the standard form before
(`VariableValue.same_toJson_iff`): a color with four channels and nothing else, an alias with its
type and its id and nothing else, and a whole number only if a floating-point number has its value.
-/

namespace DesignTokens

open Schema

/-! ## The same value -/

namespace Json

/-- The value of a number. -/
def rat? : Json → Option ℚ
  | int n => some n
  | float x => (Exact.ofFloat x).toRat?
  | _ => none

/-- Two forms of one JSON value: numbers count by their values, and the order of fields does not
count. -/
inductive Same : Json → Json → Prop where
  | null : Same null null
  | bool (b : Bool) : Same (bool b) (bool b)
  | text (s : String) : Same (text s) (text s)
  | float (x : Float) : Same (float x) (float x)
  | number {a b : Json} {q : ℚ} (ha : a.rat? = some q) (hb : b.rat? = some q) : Same a b
  | list {a b : List Json} (h : List.Forall₂ Same a b) : Same (list a) (list b)
  | object {f g : List (String × Json)}
      (h : ∀ key, Option.Rel Same (OrderedMap.find? key f) (OrderedMap.find? key g)) :
      Same (object f) (object g)

/-- A number that some floating-point number has the value of, or a floating-point number. -/
def IsFloatValue : Json → Prop
  | float _ => True
  | int n => (Exact.ofFloat (Float.ofInt n)).toRat? = some n
  | _ => False

/-- The fields of an object have these keys and no others. -/
def HasKeys (f : List (String × Json)) (names : List String) : Prop :=
  ∀ key, OrderedMap.find? key f ≠ none ↔ key ∈ names

/-- The standard form of a value of a variable. -/
def IsStandardValue : Json → Prop
  | bool _ | text _ | float _ => True
  | int n => IsFloatValue (int n)
  | object f =>
    (HasKeys f ["r", "g", "b", "a"] ∧ ∀ key j, OrderedMap.find? key f = some j → IsFloatValue j) ∨
      HasKeys f ["type", "id"]
  | _ => False

/-- A whole number is the same value as the floating-point number that it is read as if that one has
its value. -/
lemma same_ofInt_iff {n : ℤ} : Same (float (Float.ofInt n)) (int n) ↔ IsFloatValue (int n) := by
  constructor
  · intro h
    cases h with
    | number hfloat hint =>
      cases hint
      exact hfloat
  · exact fun h => .number h rfl

/-- A number that is read as a floating-point number is the same value exactly if it was one or has
its value. -/
lemma same_float_iff {j : Json} {x : Float} (hread : Schema.float j = .ok x) :
    Same (float x) j ↔ IsFloatValue j := by
  cases j with
  | float y =>
    cases hread
    exact ⟨fun _ => trivial, fun _ => .float _⟩
  | int n =>
    unfold Schema.float at hread
    dsimp only at hread
    split_ifs at hread with hinfinite
    · cases hread
    · rw [← Except.ok.inj hread]
      exact same_ofInt_iff
  | null | list | object => cases hread
  | bool b =>
    refine ⟨fun h => ?_, False.elim⟩
    cases h with
    | number _ hb => cases hb
  | text s =>
    refine ⟨fun h => ?_, False.elim⟩
    cases h with
    | number _ hb => cases hb

/-- Two objects are the same value exactly if the values under each key are. -/
lemma same_object_iff {f g : List (String × Json)} : Same (object f) (object g) ↔
    ∀ key, Option.Rel Same (OrderedMap.find? key f) (OrderedMap.find? key g) := by
  refine ⟨fun h => ?_, .object⟩
  cases h with
  | number ha hb => cases ha
  | object h => exact h

end Json

/-! ## Colors and aliases -/

open Json

section objects

variable {f : List (String × Json)}

/-- What is read as a text is a text. -/
lemma Schema.eq_text_of_text {j : Json} {s : String} (h : Schema.text j = .ok s) : j = .text s := by
  cases j with
  | text found => rw [Except.ok.inj h]
  | null | bool | int | float | list | object => cases h

/-- A field that is required is there. -/
lemma Schema.find?_of_required {α : Type} {key : String} {r : Reader α} {a : α}
    (h : required f [key] r = .ok a) : ∃ j, OrderedMap.find? key f = some j ∧ r j = .ok a := by
  unfold required Schema.find? at h
  rw [List.findSome?_singleton] at h
  split at h
  · exact ⟨_, ‹_›, h⟩
  · cases h

/-- What is read of a field that is there under the first of its names. -/
lemma Schema.read_of_required {α : Type} {first : String} {more : List String} {r : Reader α}
    {a : α} (h : required f (first :: more) r = .ok a) {j : Json}
    (hj : OrderedMap.find? first f = some j) : r j = .ok a := by
  unfold required Schema.find? at h
  rw [List.findSome?_cons, hj] at h
  exact h

/-- What is read of an optional field that is there under the first of its names. -/
lemma Schema.read_of_withDefault {α : Type} {first : String} {more : List String} {default : α}
    {r : Reader α} {a : α} (h : withDefault f (first :: more) default r = .ok a) {j : Json}
    (hj : OrderedMap.find? first f = some j) : r j = .ok a := by
  unfold withDefault Schema.find? at h
  rw [List.findSome?_cons, hj] at h
  exact h

/-- Of two related values one is there exactly if the other one is. -/
lemma ne_none_iff_of_rel {α β : Type} {R : α → β → Prop} {x : Option α} {y : Option β}
    (h : Option.Rel R x y) : x ≠ none ↔ y ≠ none := by
  cases h with
  | none => exact ⟨absurd rfl, absurd rfl⟩
  | some _ => exact ⟨fun _ => Option.some_ne_none _, fun _ => Option.some_ne_none _⟩

/-- Written fields are the same value as those of an object exactly if the object has these fields
and no others, each with the same value. -/
lemma same_object_iff_hasKeys {written : List (String × Json)} {names : List String}
    (hnames : HasKeys written names) : Same (.object written) (.object f) ↔
      HasKeys f names ∧ ∀ key j j', OrderedMap.find? key f = some j →
        OrderedMap.find? key written = some j' → Same j' j := by
  rw [same_object_iff]
  constructor
  · intro h
    refine ⟨fun key => ?_, fun key j j' hj hj' => ?_⟩
    · rw [← hnames key]
      exact (ne_none_iff_of_rel (h key)).symm
    · have hrel := h key
      rw [hj, hj'] at hrel
      cases hrel with
      | some hsame => exact hsame
  · rintro ⟨hkeys, hsame⟩ key
    have hboth : OrderedMap.find? key f ≠ none ↔ OrderedMap.find? key written ≠ none :=
      (hkeys key).trans (hnames key).symm
    cases hf : OrderedMap.find? key f with
    | none =>
      cases hw : OrderedMap.find? key written with
      | none => exact .none
      | some j' =>
        rw [hf, hw] at hboth
        exact absurd rfl (hboth.mpr (Option.some_ne_none j'))
    | some j =>
      cases hw : OrderedMap.find? key written with
      | none =>
        rw [hf, hw] at hboth
        exact absurd rfl (hboth.mp (Option.some_ne_none j))
      | some j' => exact .some (hsame key j j' hf hw)

/-- A written color has four channels. -/
lemma hasKeys_color (r g b a : Json) :
    HasKeys [("r", r), ("g", g), ("b", b), ("a", a)] ["r", "g", "b", "a"] := by
  intro key
  unfold OrderedMap.find? OrderedMap.find? OrderedMap.find? OrderedMap.find? OrderedMap.find?
  split_ifs with hr hg hb ha
  · simp [← hr]
  · simp [← hg]
  · simp [← hb]
  · simp [← ha]
  · simp [Ne.symm hr, Ne.symm hg, Ne.symm hb, Ne.symm ha]

/-- A written alias has its type and its id. -/
lemma hasKeys_alias (type id : Json) : HasKeys [("type", type), ("id", id)] ["type", "id"] := by
  intro key
  unfold OrderedMap.find? OrderedMap.find? OrderedMap.find?
  split_ifs with htype hid
  · simp [← htype]
  · simp [← hid]
  · simp [Ne.symm htype, Ne.symm hid]

/-- A color that is read and written again is the same value exactly if it had four channels, all
of them numbers that floating-point numbers have the values of, and nothing else. -/
lemma same_colorToJson_iff {c : Color} (hread : readColor (.object f) = .ok c) :
    Same (colorToJson c) (.object f) ↔
      HasKeys f ["r", "g", "b", "a"] ∧
        ∀ key j, OrderedMap.find? key f = some j → IsFloatValue j := by
  obtain ⟨_, ⟨⟩, hread⟩ := bind_eq_ok.mp hread
  obtain ⟨r, hr, hread⟩ := bind_eq_ok.mp hread
  obtain ⟨g, hg, hread⟩ := bind_eq_ok.mp hread
  obtain ⟨b, hb, hread⟩ := bind_eq_ok.mp hread
  obtain ⟨a, ha, hread⟩ := bind_eq_ok.mp hread
  cases hread
  have hwritten := hasKeys_color (Json.float r) (Json.float g) (Json.float b) (Json.float a)
  -- each channel is written as the number that it has been read as
  have hchannel : ∀ key j j', OrderedMap.find? key f = some j → OrderedMap.find? key
      [("r", Json.float r), ("g", Json.float g), ("b", Json.float b), ("a", Json.float a)] =
        some j' → ∃ x, j' = Json.float x ∧ Schema.float j = .ok x := by
    intro key j j' hj hj'
    unfold OrderedMap.find? OrderedMap.find? OrderedMap.find? OrderedMap.find? OrderedMap.find?
      at hj'
    split_ifs at hj' with hkr hkg hkb hka
    · obtain ⟨found, hfound, hvalue⟩ := Schema.find?_of_required hr
      rw [hkr, hj] at hfound
      cases hfound
      exact ⟨r, (Option.some.inj hj').symm, hvalue⟩
    · obtain ⟨found, hfound, hvalue⟩ := Schema.find?_of_required hg
      rw [hkg, hj] at hfound
      cases hfound
      exact ⟨g, (Option.some.inj hj').symm, hvalue⟩
    · obtain ⟨found, hfound, hvalue⟩ := Schema.find?_of_required hb
      rw [hkb, hj] at hfound
      cases hfound
      exact ⟨b, (Option.some.inj hj').symm, hvalue⟩
    · rw [← hka] at hj
      exact ⟨a, (Option.some.inj hj').symm, Schema.read_of_withDefault ha hj⟩
  unfold colorToJson
  rw [same_object_iff_hasKeys hwritten]
  refine and_congr_right fun hkeys => ⟨fun h key j hj => ?_, fun h key j j' hj hj' => ?_⟩
  · have hsome : OrderedMap.find? key f ≠ none := by
      rw [hj]
      exact Option.some_ne_none j
    obtain ⟨j', hj'⟩ := Option.ne_none_iff_exists'.mp ((hwritten key).mpr ((hkeys key).mp hsome))
    obtain ⟨x, rfl, hx⟩ := hchannel key j j' hj hj'
    exact (same_float_iff hx).mp (h key j _ hj hj')
  · obtain ⟨x, rfl, hx⟩ := hchannel key j j' hj hj'
    exact (same_float_iff hx).mpr (h key j hj)

/-- An alias that is read and written again is the same value exactly if it had its type and its id
and nothing else. -/
lemma same_alias_iff {id : String} (hread : readAlias (.object f) = .ok id) :
    Same (.object [("type", .text "VARIABLE_ALIAS"), ("id", .text id)]) (.object f) ↔
      HasKeys f ["type", "id"] := by
  obtain ⟨_, ⟨⟩, hread⟩ := bind_eq_ok.mp hread
  obtain ⟨type, htype, hid⟩ := bind_eq_ok.mp hread
  rw [same_object_iff_hasKeys (hasKeys_alias _ _)]
  refine and_iff_left fun key j j' hj hj' => ?_
  unfold OrderedMap.find? OrderedMap.find? OrderedMap.find? at hj'
  split_ifs at hj' with hktype hkid
  · rw [← hktype] at hj
    obtain ⟨s, hs, hname⟩ := bind_eq_ok.mp (Schema.read_of_withDefault htype hj)
    split_ifs at hname with hcontains
    · have hs' : s = "VARIABLE_ALIAS" := List.mem_singleton.mp (List.contains_iff_mem.mp hcontains)
      rw [eq_text_of_text hs, hs', ← Option.some.inj hj']
      exact .text _
    · cases hname
  · obtain ⟨found, hfound, hvalue⟩ := Schema.find?_of_required hid
    rw [hkid, hj] at hfound
    cases hfound
    rw [eq_text_of_text hvalue, ← Option.some.inj hj']
    exact .text _

end objects

/-! ## Values -/

/-- A value that is read and written again is the same value exactly if it was in the standard
form. -/
theorem VariableValue.same_toJson_iff {j : Json} {value : VariableValue}
    (hread : readValue j = .ok value) : Same value.toJson j ↔ IsStandardValue j := by
  cases j with
  | bool b =>
    cases hread
    exact ⟨fun _ => trivial, fun _ => .bool b⟩
  | text s =>
    cases hread
    exact ⟨fun _ => trivial, fun _ => .text s⟩
  | float x =>
    cases hread
    exact ⟨fun _ => trivial, fun _ => .float x⟩
  | int n =>
    obtain ⟨x, hx, rfl⟩ := map_eq_ok.mp hread
    exact same_float_iff hx
  | null =>
    cases hread
  | list items =>
    cases hread
  | object f =>
    unfold readValue at hread
    dsimp only at hread
    split at hread
    · rename_i c hcolor
      cases hread
      refine (same_colorToJson_iff hcolor).trans ⟨Or.inl, fun h => h.resolve_right fun halias => ?_⟩
      obtain ⟨_, ⟨⟩, hcolor⟩ := bind_eq_ok.mp hcolor
      obtain ⟨r, hr, -⟩ := bind_eq_ok.mp hcolor
      obtain ⟨found, hfound, -⟩ := Schema.find?_of_required hr
      have hmem := (halias "r").mp (hfound ▸ Option.some_ne_none found)
      exact absurd hmem (by decide)
    · obtain ⟨id, halias, rfl⟩ := map_eq_ok.mp hread
      refine (same_alias_iff halias).trans ⟨Or.inr, fun h => h.resolve_left fun ⟨hcolor, _⟩ => ?_⟩
      obtain ⟨_, ⟨⟩, halias⟩ := bind_eq_ok.mp halias
      obtain ⟨type, -, hid⟩ := bind_eq_ok.mp halias
      obtain ⟨found, hfound, -⟩ := Schema.find?_of_required hid
      have hmem := (hcolor "id").mp (hfound ▸ Option.some_ne_none found)
      exact absurd hmem (by decide)

end DesignTokens
