import DesignTokens.Design.Reading
import DesignTokens.Proofs.Json.RoundTrip
import DesignTokens.Proofs.Outcome

/-!
# Written records are read back

A variable that is written as plain data is read as itself, with values of the same kinds
(`Variable.read_toJson`): a boolean, a number, a text, a color and an alias are told apart by their
form alone.
-/

namespace DesignTokens

open Schema

/-! ## Reading what has been written -/

/-- The name of a type is read back. -/
lemma VariableType.ofName?_name (type : VariableType) : ofName? type.name = some type := by
  cases type <;> decide

/-- A value is read back, and in its own kind. -/
theorem VariableValue.readValue_toJson (value : VariableValue) :
    readValue value.toJson = .ok value := by
  cases value <;> rfl

/-- A map is read back when its values are. -/
lemma Schema.map_of_inverse {α : Type} {read : Json → Except Fault α} {write : α → Json}
    (h : ∀ a, read (write a) = .ok a) (m : OrderedMap α) :
    Schema.map read (.object (m.map fun e => (e.1, write e.2))) = .ok m := by
  unfold Schema.map
  exact mapM_of_inverse (fun e => bind_of_ok (h e.2) _) m

/-- The fields of a record hold what a variable is made of. -/
structure Variable.IsReadFrom (f : List (String × Json)) (v : Variable) : Prop where
  id : required f ["id"] text = .ok v.id
  name : required f ["name"] text = .ok v.name
  type : required f ["resolvedType", "resolved_type"] (choice VariableType.ofName?) = .ok v.type
  values : withDefault f ["valuesByMode", "values_by_mode"] [] (map readValue) = .ok v.values
  collectionId : required f ["variableCollectionId", "variable_collection_id"] text =
    .ok v.collectionId
  description : withDefault f ["description"] "" text = .ok v.description
  codeSyntax : withDefault f ["codeSyntax", "code_syntax"] [] (map text) = .ok v.codeSyntax

/-- A variable is read from a record that holds all it is made of. -/
theorem Variable.read_eq_ok {j : Json} {v : Variable} :
    Variable.read j = .ok v ↔ ∃ f, j = .object f ∧ v.IsReadFrom f := by
  constructor
  · intro h
    obtain ⟨f, hf, h⟩ := bind_eq_ok.mp h
    obtain ⟨id, hid, h⟩ := bind_eq_ok.mp h
    obtain ⟨name, hname, h⟩ := bind_eq_ok.mp h
    obtain ⟨type, htype, h⟩ := bind_eq_ok.mp h
    obtain ⟨values, hvalues, h⟩ := bind_eq_ok.mp h
    obtain ⟨collectionId, hcollection, h⟩ := bind_eq_ok.mp h
    obtain ⟨description, hdescription, h⟩ := bind_eq_ok.mp h
    obtain ⟨codeSyntax, hcode, h⟩ := bind_eq_ok.mp h
    cases h
    refine ⟨f, ?_, hid, hname, htype, hvalues, hcollection, hdescription, hcode⟩
    cases j <;> cases hf
    rfl
  · rintro ⟨f, rfl, h⟩
    unfold Variable.read
    rw [bind_of_ok (rfl : fields (.object f) = .ok f), bind_of_ok h.id, bind_of_ok h.name,
      bind_of_ok h.type, bind_of_ok h.values, bind_of_ok h.collectionId, bind_of_ok h.description,
      bind_of_ok h.codeSyntax]
    rfl

/-- A variable is read back. -/
theorem Variable.read_toJson (v : Variable) : Variable.read v.toJson = .ok v := by
  have hcode : Schema.map text (.object (v.codeSyntax.map fun e => (e.1, .text e.2))) =
      .ok v.codeSyntax := Schema.map_of_inverse (fun code : String => rfl) v.codeSyntax
  refine Variable.read_eq_ok.mpr ⟨_, rfl, ⟨rfl, rfl, ?_,
    Schema.map_of_inverse VariableValue.readValue_toJson v.values, rfl, rfl, hcode⟩⟩
  show require (VariableType.ofName? v.type.name) = .ok v.type
  rw [VariableType.ofName?_name]
  rfl

/-- Variables are read back, in their order. -/
theorem Variable.list_read_toJson (vars : List Variable) :
    Schema.list Variable.read (.list (vars.map Variable.toJson)) = .ok vars :=
  mapM_of_inverse Variable.read_toJson vars

/-! ## Keys -/

/-- The modes and the platforms of a variable are pairwise different. -/
structure Variable.IsKeyed (v : Variable) : Prop where
  values : v.values.keys.Nodup
  codeSyntax : v.codeSyntax.keys.Nodup

/-- A map that is read has the keys of its fields. -/
lemma Schema.keys_of_map {α : Type} {r : Reader α} {fields : List (String × Json)}
    {m : OrderedMap α} (h : Schema.map r (.object fields) = .ok m) :
    m.keys = OrderedMap.keys fields := by
  refine map_of_mapM h fun e e' hread => ?_
  obtain ⟨a, -, hpair⟩ := bind_eq_ok.mp hread
  cases hpair
  rfl

/-- A map that is read from an optional field has no key twice. -/
lemma Schema.nodup_of_withDefault {α : Type} {r : Reader α} {f : List (String × Json)}
    (hf : (Json.object f).IsKeyed) {names : List String} {m : OrderedMap α}
    (h : withDefault f names [] (Schema.map r) = .ok m) : m.keys.Nodup := by
  unfold withDefault at h
  split at h
  · rename_i j hj
    obtain ⟨name, -, hname⟩ := List.exists_of_findSome?_eq_some hj
    have hkeyed : j.IsKeyed := Json.fieldsKeyed_iff.mp hf.2 _ (OrderedMap.mem_of_find? hname)
    cases j with
    | object fields =>
      rw [Schema.keys_of_map h]
      exact hkeyed.1
    | null | bool | int | float | text | list => cases h
  · cases h
    exact List.nodup_nil

/-- A variable that is read has no mode and no platform twice. -/
theorem Variable.isKeyed_of_read {j : Json} (hj : j.IsKeyed) {v : Variable}
    (h : Variable.read j = .ok v) : v.IsKeyed := by
  obtain ⟨f, rfl, hread⟩ := Variable.read_eq_ok.mp h
  exact ⟨Schema.nodup_of_withDefault hj hread.values,
    Schema.nodup_of_withDefault hj hread.codeSyntax⟩

/-- A value is written so that it can be stored. -/
lemma VariableValue.isStorable_toJson (value : VariableValue) : value.toJson.IsStorable := by
  have hchannels : ["r", "g", "b", "a"].Nodup := by decide
  have hnames : ["type", "id"].Nodup := by decide
  cases value with
  | bool | number | text => exact ⟨trivial, rfl⟩
  | color c => exact ⟨⟨hchannels, trivial, trivial, trivial, trivial, trivial⟩, rfl⟩
  | aliasOf id => exact ⟨⟨hnames, trivial, trivial, trivial⟩, rfl⟩

/-- A map is written so that it can be stored if it has no key twice and its values can. -/
lemma Json.isStorable_map {α : Type} {m : OrderedMap α} (hkeys : m.keys.Nodup) {toJson : α → Json}
    (h : ∀ a, (toJson a).IsStorable) :
    (Json.object (m.map fun e => (e.1, toJson e.2))).IsStorable := by
  refine Json.isStorable_object.mpr ⟨?_, fun e he => ?_⟩
  · unfold OrderedMap.keys
    rw [List.map_map]
    exact hkeys
  · obtain ⟨entry, -, rfl⟩ := List.mem_map.mp he
    exact h entry.2

/-- A variable is written so that it can be stored. -/
theorem Variable.isStorable_toJson {v : Variable} (h : v.IsKeyed) : v.toJson.IsStorable := by
  have hnames : ["id", "name", "resolvedType", "valuesByMode", "variableCollectionId",
      "description", "codeSyntax"].Nodup := by decide
  have htext : ∀ s, (Json.text s).IsStorable := fun _ => ⟨trivial, rfl⟩
  have hvalues := Json.isStorable_map h.values VariableValue.isStorable_toJson
  have hcode := Json.isStorable_map h.codeSyntax htext
  refine Json.isStorable_object.mpr ⟨hnames, ?_⟩
  simp only [List.forall_mem_cons, htext, true_and]
  exact ⟨hvalues, hcode, List.forall_mem_nil _⟩

end DesignTokens
