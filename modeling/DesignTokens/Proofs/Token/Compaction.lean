import DesignTokens.Proofs.Export.Descriptions
import DesignTokens.Proofs.Json.RoundTrip
import DesignTokens.Proofs.Token.Malformed
import DesignTokens.Proofs.Token.Reserved
import DesignTokens.Token.Compact

/-!
# Reading compact data

Compacting looks at each field alone: it leaves the field out or changes its value
(`Json.compactFields_eq_filterMap`).  What is left stays when it is compacted again
(`Json.compact_compact`).  Where no collection has a name that begins with a dollar sign, compact
data is read as the document that has been read before, without its descriptions
(`Document.read_compact`), so that it gives the same stylesheets and names.
-/

namespace DesignTokens

/-! ## Fields one by one -/

namespace Json

/-- What is left of extensions, if some of them are not empty. -/
def compactExtensions? : Json → Option Json
  | object extensions =>
    if (fullExtensions extensions).isEmpty then none else some (object (fullExtensions extensions))
  | value => some value

/-- What is left of the value of a field in a compact object, if the field is. -/
def compactField? (key : String) (value : Json) : Option Json :=
  if key = "$description" then none
  else if key = "$value" then some value
  else if key = "$extensions" then value.compactExtensions?
  else some value.compact

/-- The fields of an object are compacted one by one. -/
lemma compactFields_cons (key : String) (value : Json) (rest : List (String × Json)) :
    compactFields ((key, value) :: rest) =
      ((compactField? key value).map (Prod.mk key)).toList ++ compactFields rest := by
  unfold compactField?
  conv_lhs => unfold compactFields
  split_ifs with hdescription hvalue hextensions
  · rfl
  · rfl
  · subst hextensions
    cases value with
    | object extensions =>
      unfold compactExtensions?
      simp only
      cases fullExtensions extensions <;> rfl
    | _ => simp [compactExtensions?, compact]
  · split
    · exact absurd rfl hextensions
    · rfl

/-- A compact object has the fields that are left. -/
lemma compactFields_eq_filterMap (fields : List (String × Json)) :
    compactFields fields = fields.filterMap fun e => (compactField? e.1 e.2).map (Prod.mk e.1) := by
  induction fields with
  | nil => rfl
  | cons field rest ih =>
    rw [compactFields_cons, List.filterMap_cons, ih]
    cases compactField? field.1 field.2 <;> rfl

/-- A key of a compact object stands for what is left. -/
lemma find?_compactFields {fields : List (String × Json)} (hkeys : (OrderedMap.keys fields).Nodup)
    (key : String) : OrderedMap.find? key (compactFields fields) =
      (OrderedMap.find? key fields).bind (compactField? key) := by
  rw [compactFields_eq_filterMap]
  exact OrderedMap.find?_filterMap hkeys compactField? key

/-- Descriptions are left out. -/
lemma compactField?_description (value : Json) : compactField? "$description" value = none :=
  if_pos rfl

/-- Values are kept. -/
lemma compactField?_value (value : Json) : compactField? "$value" value = some value := by
  unfold compactField?
  rw [if_neg (by decide), if_pos rfl]

/-- Extensions are left out if all of them are empty. -/
lemma compactField?_extensions (value : Json) :
    compactField? "$extensions" value = value.compactExtensions? := by
  unfold compactField?
  rw [if_neg (by decide), if_neg (by decide), if_pos rfl]

/-- Any other field is compacted. -/
lemma compactField?_of_ne {key : String} (hdescription : key ≠ "$description")
    (hvalue : key ≠ "$value") (hextensions : key ≠ "$extensions") (value : Json) :
    compactField? key value = some value.compact := by
  unfold compactField?
  rw [if_neg hdescription, if_neg hvalue, if_neg hextensions]

/-- A field whose name begins with no dollar sign is compacted. -/
lemma compactField?_of_name {name : String} (h : name.toList.head? ≠ some '$') (value : Json) :
    compactField? name value = some value.compact := by
  refine compactField?_of_ne ?_ ?_ ?_ value
  all_goals
    rintro rfl
    exact h (by decide)

/-- Fields whose names begin with no dollar sign are compacted one by one. -/
lemma compactFields_of_names {fields : List (String × Json)}
    (h : ∀ e ∈ fields, e.1.toList.head? ≠ some '$') :
    compactFields fields = fields.map fun e => (e.1, e.2.compact) := by
  rw [compactFields_eq_filterMap, ← List.filterMap_eq_map]
  refine List.filterMap_congr fun e he => ?_
  rw [compactField?_of_name (h e he)]
  rfl

/-- Fields are chosen by their names before or after they are compacted. -/
lemma filter_compactFields (p : String → Bool) (fields : List (String × Json)) :
    (compactFields fields).filter (p ·.1) = compactFields (fields.filter (p ·.1)) := by
  induction fields with
  | nil => rfl
  | cons field rest ih =>
    obtain ⟨key, value⟩ := field
    rw [compactFields_cons, List.filter_append, ih, List.filter_cons]
    dsimp only
    cases hp : p key with
    | true =>
      rw [if_pos rfl, compactFields_cons]
      cases compactField? key value <;> simp [hp]
    | false =>
      rw [if_neg Bool.false_ne_true]
      cases compactField? key value <;> simp [hp]

/-- A field of compact data whose name begins with no special key. -/
lemma field?_compact {j : Json} (hkeyed : j.IsKeyed) {key : String}
    (hdescription : key ≠ "$description") (hvalue : key ≠ "$value")
    (hextensions : key ≠ "$extensions") : j.compact.field? key = (j.field? key).map compact := by
  cases j with
  | object fields =>
    show OrderedMap.find? key (compactFields fields) = (OrderedMap.find? key fields).map compact
    rw [find?_compactFields hkeyed.1,
      funext (compactField?_of_ne hdescription hvalue hextensions)]
    cases OrderedMap.find? key fields <;> rfl
  | _ => rfl

/-- A field of data without repeated keys has none either. -/
lemma isKeyed_of_field? {j value : Json} (hkeyed : j.IsKeyed) {key : String}
    (h : j.field? key = some value) : value.IsKeyed := by
  cases j with
  | object fields => exact fieldsKeyed_iff.mp hkeyed.2 _ (OrderedMap.mem_of_find? h)
  | _ => cases h

/-! ## Compacting again -/

/-- What is left of extensions stays. -/
lemma compactExtensions?_of_left {value left : Json} (h : value.compactExtensions? = some left) :
    left.compactExtensions? = some left := by
  cases value with
  | object extensions =>
    unfold compactExtensions? at h
    dsimp only at h
    split_ifs at h with hempty
    cases h
    have hfull : fullExtensions (fullExtensions extensions) = fullExtensions extensions :=
      List.filter_eq_self.mpr fun _ he => (List.mem_filter.mp he).2
    unfold compactExtensions?
    dsimp only
    rw [hfull, if_neg hempty]
  | _ =>
    cases h
    rfl

/-- What is left of a field stays if the value does when it has been compacted. -/
lemma compactField?_of_left {key : String} {value left : Json}
    (h : compactField? key value = some left) (hvalue : value.compact.compact = value.compact) :
    compactField? key left = some left := by
  unfold compactField? at h ⊢
  split_ifs at h ⊢
  · rfl
  · exact compactExtensions?_of_left h
  · cases h
    rw [hvalue]

mutual

/-- Compact data stays as it is. -/
theorem compact_compact : (j : Json) → j.compact.compact = j.compact
  | .object fields => congrArg object (compactFields_compactFields fields)
  | .null | .bool _ | .int _ | .float _ | .text _ | .list _ => rfl

/-- The fields of a compact object stay as they are. -/
theorem compactFields_compactFields : (fields : List (String × Json)) →
    compactFields (compactFields fields) = compactFields fields
  | [] => rfl
  | (key, value) :: rest => by
    rw [compactFields_cons]
    cases hleft : compactField? key value with
    | none => exact compactFields_compactFields rest
    | some left =>
      show compactFields ((key, left) :: compactFields rest) = (key, left) :: compactFields rest
      rw [compactFields_cons, compactField?_of_left hleft (compact_compact value),
        compactFields_compactFields rest]
      rfl

end

end Json

/-! ## Tokens -/

open Schema

/-- A field of an object is what the key stands for, also if there are none. -/
lemma fieldIfAny_object (key : String) (g : List (String × Json)) :
    fieldIfAny key (some (.object g)) = .ok (OrderedMap.find? key g) := by
  cases g <;> rfl

/-- A key of full extensions stands for what it does, if that is not empty. -/
lemma find?_fullExtensions {g : List (String × Json)} (hkeys : (OrderedMap.keys g).Nodup)
    (key : String) : OrderedMap.find? key (Json.fullExtensions g) =
      (OrderedMap.find? key g).filter Json.isTruthy := by
  have hfilter : Json.fullExtensions g = g.filterMap fun e =>
      ((some e.2).filter Json.isTruthy).map (Prod.mk e.1) := by
    unfold Json.fullExtensions
    rw [← List.filterMap_eq_filter]
    refine List.filterMap_congr fun e _ => ?_
    rw [Option.filter_some, Option.guard]
    split_ifs <;> rfl
  rw [hfilter, OrderedMap.find?_filterMap hkeys fun _ value => (some value).filter Json.isTruthy]
  cases OrderedMap.find? key g <;> rfl

section token

variable {f : List (String × Json)} (hkeys : (OrderedMap.keys f).Nodup)

include hkeys

/-- A value is kept. -/
lemma find?_value_compactFields :
    OrderedMap.find? "$value" (Json.compactFields f) = OrderedMap.find? "$value" f := by
  rw [Json.find?_compactFields hkeys, funext Json.compactField?_value, Option.bind_fun_some]

/-- The type of a token is kept. -/
lemma readTokenType_compactFields {type : TokenType} (h : readTokenType f = .ok type) :
    readTokenType (Json.compactFields f) = .ok type := by
  unfold readTokenType at h ⊢
  rw [Json.find?_compactFields hkeys]
  cases hfound : OrderedMap.find? "$type" f with
  | none =>
    rw [hfound] at h
    exact h
  | some j =>
    rw [hfound] at h
    rw [Option.bind_some, Json.compactField?_of_ne (by decide) (by decide) (by decide)]
    cases j with
    | text _ => exact h
    | _ => cases h

/-- The origin of a token is found again if it is not empty. -/
lemma fieldIfAny_compactFields
    (hextensions : ∀ g, OrderedMap.find? "$extensions" f = some (.object g) →
      (OrderedMap.keys g).Nodup) {key : String} {origin : Option Json}
    (h : fieldIfAny key (OrderedMap.find? "$extensions" f) = .ok origin) :
    ∃ left, fieldIfAny key (OrderedMap.find? "$extensions" (Json.compactFields f)) = .ok left ∧
      left.filter Json.isTruthy = origin.filter Json.isTruthy := by
  rw [Json.find?_compactFields hkeys, funext Json.compactField?_extensions]
  cases hfound : OrderedMap.find? "$extensions" f with
  | none =>
    rw [hfound] at h
    exact ⟨origin, h, rfl⟩
  | some j =>
    rw [hfound] at h
    rw [Option.bind_some]
    cases j with
    | object g =>
      rw [fieldIfAny_object] at h
      cases h
      have hfull := find?_fullExtensions (hextensions g hfound) key
      unfold Json.compactExtensions?
      dsimp only
      split_ifs with hempty
      · refine ⟨none, rfl, ?_⟩
        rw [List.isEmpty_iff.mp hempty] at hfull
        exact hfull
      · refine ⟨_, fieldIfAny_object key _, ?_⟩
        rw [hfull, Option.filter_filter]
        simp only [Bool.and_self]
    | _ => exact ⟨origin, h, rfl⟩

/-- No description is found. -/
lemma description_compactFields :
    withDefault (Json.compactFields f) ["$description"] none (optional text) = .ok none := by
  have hnone : Schema.find? ["$description"] (Json.compactFields f) = none := by
    unfold Schema.find?
    rw [List.findSome?_cons, Json.find?_compactFields hkeys, funext Json.compactField?_description]
    cases OrderedMap.find? "$description" f <;> rfl
  unfold withDefault
  rw [hnone]

/-- A token is read without its description. -/
theorem Token.read_compactFields
    (hextensions : ∀ g, OrderedMap.find? "$extensions" f = some (.object g) →
      (OrderedMap.keys g).Nodup) {t : Token} (h : Token.read f = .ok t) :
    Token.read (Json.compactFields f) = .ok t.withoutDescription := by
  unfold Token.read at h ⊢
  obtain ⟨type, htype, h⟩ := bind_eq_ok.mp h
  obtain ⟨origin, horigin, h⟩ := bind_eq_ok.mp h
  obtain ⟨value, hvalue, h⟩ := bind_eq_ok.mp h
  obtain ⟨left, hleft, hsame⟩ := fieldIfAny_compactFields hkeys hextensions horigin
  refine (bind_of_ok (readTokenType_compactFields hkeys htype) _).trans ?_
  refine (bind_of_ok hleft _).trans ?_
  rw [find?_value_compactFields hkeys, description_compactFields hkeys]
  refine (bind_of_ok hvalue _).trans ?_
  rw [hsame]
  split at h
  · obtain ⟨read, hread, h⟩ := bind_eq_ok.mp h
    obtain ⟨description, _, h⟩ := bind_eq_ok.mp h
    cases h
    exact bind_of_ok hread _
  · obtain ⟨_, ⟨⟩, h⟩ := bind_eq_ok.mp h
    obtain ⟨description, _, h⟩ := bind_eq_ok.mp h
    cases h
    rfl

end token

/-! ## Trees -/

/-- Extensions of a keyed object are keyed. -/
lemma nodup_extensions {f : List (String × Json)} (h : Json.FieldsKeyed f)
    (g : List (String × Json)) (hfound : OrderedMap.find? "$extensions" f = some (.object g)) :
    (OrderedMap.keys g).Nodup :=
  (Json.fieldsKeyed_iff.mp h _ (OrderedMap.mem_of_find? hfound)).1

mutual

/-- A child of a group is read without descriptions. -/
lemma readNode_compact (name : String) : (j : Json) → j.IsKeyed → {node : TokenNode} →
    readNode name j = .ok node →
      readNode name j.compact = .ok (node.mapTokens Token.withoutDescription)
  | .object f, ⟨hkeys, hfields⟩, node, h => by
    have hvalued : OrderedMap.has (Json.compactFields f) "$value" = OrderedMap.has f "$value" :=
      congrArg Option.isSome (find?_value_compactFields hkeys)
    rw [Json.compact, readNode, hvalued]
    rw [readNode] at h
    split_ifs at h ⊢
    · obtain ⟨t, ht, rfl⟩ := map_eq_ok.mp h
      rw [Token.read_compactFields hkeys (nodup_extensions hfields) ht]
      rfl
    · obtain ⟨tree, htree, rfl⟩ := map_eq_ok.mp h
      rw [readChildren_compactFields f hfields htree]
      rfl
  | .null, _, _, h | .bool _, _, _, h | .int _, _, _, h | .float _, _, _, h | .text _, _, _, h
  | .list _, _, _, h => by
    rw [readNode] at h
    · cases h
    · exact fun _ => Json.noConfusion

/-- The children of a group are read without descriptions. -/
lemma readChildren_compactFields : (f : List (String × Json)) → Json.FieldsKeyed f →
    {tree : TokenTree} → readChildren f = .ok tree →
      readChildren (Json.compactFields f) = .ok (TokenTree.mapTokens Token.withoutDescription tree)
  | [], _, _, h => by
    rw [readChildren] at h
    cases h
    rfl
  | (name, j) :: rest, ⟨hkeyed, hrest⟩, tree, h => by
    rw [readChildren] at h
    rw [Json.compactFields_cons]
    split_ifs at h with hname
    · -- Whatever is left of the child is passed over.
      have hread := readChildren_compactFields rest hrest h
      cases Json.compactField? name j with
      | none => exact hread
      | some left =>
        show readChildren ((name, left) :: Json.compactFields rest) = _
        rw [readChildren, if_pos hname]
        exact hread
    · obtain ⟨node, hnode, h⟩ := bind_eq_ok.mp h
      obtain ⟨tail, htail, h⟩ := bind_eq_ok.mp h
      cases h
      rw [Json.compactField?_of_name hname]
      show readChildren ((name, j.compact) :: Json.compactFields rest) = _
      rw [readChildren, if_neg hname]
      refine (bind_of_ok (readNode_compact name j hkeyed hnode) _).trans ?_
      exact bind_of_ok (readChildren_compactFields rest hrest htail) _

end

/-- A tree is read without descriptions. -/
lemma TokenTree.read_compact {j : Json} (hkeyed : j.IsKeyed) {tree : TokenTree}
    (h : TokenTree.read j = .ok tree) :
    TokenTree.read j.compact = .ok (TokenTree.mapTokens Token.withoutDescription tree) := by
  cases j with
  | object f => exact readChildren_compactFields f hkeyed.2 h
  | _ => cases h

/-- Entries that are compacted one by one are read without descriptions. -/
lemma readEntries_compact {f : List (String × Json)} (hkeyed : ∀ e ∈ f, e.2.IsKeyed)
    {trees : OrderedMap TokenTree} (h : readEntries TokenTree.read f = .ok trees) :
    readEntries TokenTree.read (f.map fun e => (e.1, e.2.compact)) =
      .ok (trees.map fun (name, tree) =>
        (name, TokenTree.mapTokens Token.withoutDescription tree)) := by
  induction f generalizing trees with
  | nil =>
    cases h
    rfl
  | cons e rest ih =>
    obtain ⟨hfirst, hrest⟩ := List.forall_mem_cons.mp hkeyed
    obtain ⟨tree, htree, h⟩ := bind_eq_ok.mp h
    obtain ⟨tail, htail, h⟩ := bind_eq_ok.mp h
    cases h
    refine (bind_of_ok (TokenTree.read_compact hfirst htree) _).trans ?_
    exact bind_of_ok (ih hrest htail) _

/-- Trees that are changed are found under the names of kinds. -/
lemma StyleTrees.ofEntries_mapTokens (f : Token → Token) (trees : OrderedMap TokenTree) :
    ofEntries (trees.map fun (name, tree) => (name, TokenTree.mapTokens f tree)) =
      (ofEntries trees).mapTokens f := by
  unfold ofEntries mapTokens
  simp only [OrderedMap.find?_map]

/-- Style trees are read without descriptions. -/
lemma StyleTrees.read_compactFields {f : List (String × Json)} (hkeyed : Json.FieldsKeyed f)
    {styles : StyleTrees} (h : StyleTrees.read f = .ok styles) :
    StyleTrees.read (Json.compactFields f) = .ok (styles.mapTokens Token.withoutDescription) := by
  have hstyleNames : ∀ name ∈ styleNames, name.toList.head? ≠ some '$' := by decide
  have hnames : ∀ e ∈ f.filter (styleNames.contains ·.1), e.1.toList.head? ≠ some '$' :=
    fun e he => hstyleNames e.1 (List.contains_iff_mem.mp (List.mem_filter.mp he).2)
  have hchosen : ∀ e ∈ f.filter (styleNames.contains ·.1), e.2.IsKeyed :=
    fun e he => Json.fieldsKeyed_iff.mp hkeyed e (List.mem_filter.mp he).1
  have hfilter : (Json.compactFields f).filter (styleNames.contains ·.1) =
      (f.filter (styleNames.contains ·.1)).map fun e => (e.1, e.2.compact) :=
    (Json.filter_compactFields styleNames.contains f).trans (Json.compactFields_of_names hnames)
  obtain ⟨trees, htrees, h⟩ := bind_eq_ok.mp h
  have hstyles : StyleTrees.ofEntries trees = styles := Except.ok.inj h
  unfold StyleTrees.read
  rw [show (Json.compactFields f).filter (["paint", "text", "effect", "grid"].contains ·.1) = _ from
    hfilter]
  refine (bind_of_ok (readEntries_compact hchosen htrees) _).trans (congrArg Except.ok ?_)
  rw [← hstyles]
  exact StyleTrees.ofEntries_mapTokens Token.withoutDescription trees

/-! ## Documents -/

/-- What is stored under keys that begin with no dollar sign is compacted. -/
lemma Schema.find?_compactFields {f : List (String × Json)} (hkeys : (OrderedMap.keys f).Nodup)
    {names : List String} (hnames : ∀ name ∈ names, name.toList.head? ≠ some '$') :
    Schema.find? names (Json.compactFields f) = (Schema.find? names f).map Json.compact := by
  unfold Schema.find?
  induction names with
  | nil => rfl
  | cons name rest ih =>
    obtain ⟨hname, hrest⟩ := List.forall_mem_cons.mp hnames
    rw [List.findSome?_cons, List.findSome?_cons, ih hrest, Json.find?_compactFields hkeys,
      funext (Json.compactField?_of_name hname)]
    cases OrderedMap.find? name f <;> rfl

/-- A text of a record stays if its keys begin with no dollar sign. -/
lemma withDefault_text_compactFields {f : List (String × Json)}
    (hkeys : (OrderedMap.keys f).Nodup) {names : List String}
    (hnames : ∀ name ∈ names, name.toList.head? ≠ some '$') {default s : String}
    (h : withDefault f names default text = .ok s) :
    withDefault (Json.compactFields f) names default text = .ok s := by
  unfold withDefault at h ⊢
  rw [Schema.find?_compactFields hkeys hnames]
  cases hfound : Schema.find? names f with
  | none =>
    rw [hfound] at h
    exact h
  | some value =>
    rw [hfound] at h
    cases value with
    | text _ => exact h
    | _ => cases h

/-- Metadata of a document stay. -/
lemma readMetadata_compactFields {f : List (String × Json)} (hkeys : (OrderedMap.keys f).Nodup)
    {metadata : String × String} (h : readMetadata (.object f) = .ok metadata) :
    readMetadata (.object (Json.compactFields f)) = .ok metadata := by
  obtain ⟨_, ⟨⟩, h⟩ := bind_eq_ok.mp h
  obtain ⟨source, hsource, h⟩ := bind_eq_ok.mp h
  obtain ⟨time, htime, h⟩ := bind_eq_ok.mp h
  cases h
  refine (bind_of_ok (withDefault_text_compactFields hkeys (by decide) hsource) _).trans ?_
  exact bind_of_ok (withDefault_text_compactFields hkeys (by decide) htime) _

namespace Document

/-- Metadata that are an object are read, also if it is empty. -/
lemma readMetadataField_of_object {j : Json} {f : List (String × Json)}
    (h : j.field? "$metadata" = some (.object f)) :
    readMetadataField j = readMetadata (.object f) := by
  unfold readMetadataField
  rw [h]
  cases f <;> rfl

variable {j : Json} (hkeyed : j.IsKeyed)

include hkeyed

/-- The styles of a document are read without descriptions. -/
lemma readStyles_compact {styles : Option StyleTrees} (h : readStyles j = .ok styles) :
    readStyles j.compact = .ok (styles.map (StyleTrees.mapTokens Token.withoutDescription)) := by
  unfold readStyles at h ⊢
  rw [Json.field?_compact hkeyed (by decide) (by decide) (by decide)]
  cases hfound : j.field? "$styles" with
  | none =>
    rw [hfound] at h
    cases h
    rfl
  | some value =>
    rw [hfound] at h
    cases value with
    | object f =>
      obtain ⟨trees, htrees, rfl⟩ := map_eq_ok.mp h
      have hfields : Json.FieldsKeyed f := (Json.isKeyed_of_field? hkeyed hfound).2
      exact map_eq_ok.mpr ⟨_, StyleTrees.read_compactFields hfields htrees, rfl⟩
    | _ =>
      cases h
      rfl

/-- The metadata of a document stay. -/
lemma readMetadataField_compact {metadata : String × String}
    (h : readMetadataField j = .ok metadata) : readMetadataField j.compact = .ok metadata := by
  have hfield := Json.field?_compact hkeyed (by decide : "$metadata" ≠ "$description") (by decide)
    (by decide)
  cases hfound : j.field? "$metadata" with
  | none =>
    rw [hfound] at hfield
    unfold readMetadataField at h ⊢
    rw [hfound] at h
    rw [hfield]
    exact h
  | some value =>
    rw [hfound] at hfield
    cases value with
    | object f =>
      rw [readMetadataField_of_object hfound] at h
      rw [readMetadataField_of_object hfield]
      exact readMetadata_compactFields (Json.isKeyed_of_field? hkeyed hfound).1 h
    | _ =>
      unfold readMetadataField at h ⊢
      rw [hfound] at h
      rw [hfield]
      exact h

/-- The schema of a document stays. -/
lemma readSchema_compact {schema : String} (h : readSchema j = .ok schema) :
    readSchema j.compact = .ok schema := by
  unfold readSchema at h ⊢
  rw [Json.field?_compact hkeyed (by decide) (by decide) (by decide)]
  cases hfound : j.field? "$schema" with
  | none =>
    rw [hfound] at h
    exact h
  | some value =>
    rw [hfound] at h
    cases value with
    | text _ => exact h
    | _ => cases h

/-- Compact data is read as the same document without descriptions, where no collection has a name
that begins with a dollar sign. -/
theorem read_compact {d : Document} (h : Document.read j = .ok d)
    (hnames : ∀ e ∈ d.collections, e.1.toList.head? ≠ some '$') :
    Document.read j.compact = .ok d.withoutDescriptions := by
  by_cases hcollections : ∃ trees, j.field? "collections" = some (.object trees)
  · obtain ⟨trees, hcollections⟩ := hcollections
    have hleft : j.compact.field? "collections" = some (.object (Json.compactFields trees)) := by
      rw [Json.field?_compact hkeyed (by decide) (by decide) (by decide), hcollections]
      rfl
    rw [read_eq hcollections] at h
    rw [read_eq hleft]
    obtain ⟨collections, hread, h⟩ := bind_eq_ok.mp h
    obtain ⟨styles, hstyles, h⟩ := bind_eq_ok.mp h
    obtain ⟨metadata, hmetadata, h⟩ := bind_eq_ok.mp h
    obtain ⟨schema, hschema, h⟩ := bind_eq_ok.mp h
    cases h
    have hplain : ∀ e ∈ trees, e.1.toList.head? ≠ some '$' := by
      intro e he
      have hkey : e.1 ∈ OrderedMap.keys collections := by
        rw [keys_readEntries hread]
        exact List.mem_map_of_mem he
      obtain ⟨e', he', heq⟩ := List.mem_map.mp hkey
      rw [← heq]
      exact hnames e' he'
    have hkeyedTrees : ∀ e ∈ trees, e.2.IsKeyed :=
      Json.fieldsKeyed_iff.mp (Json.isKeyed_of_field? hkeyed hcollections).2
    rw [Json.compactFields_of_names hplain]
    refine (bind_of_ok (readEntries_compact hkeyedTrees hread) _).trans ?_
    refine (bind_of_ok (readStyles_compact hkeyed hstyles) _).trans ?_
    refine (bind_of_ok (readMetadataField_compact hkeyed hmetadata) _).trans ?_
    exact bind_of_ok (readSchema_compact hkeyed hschema) _
  · rw [read_of_no_collections (not_exists.mp hcollections)] at h
    cases h

omit hkeyed

/-- Compacting data again leaves it as it is.  Data in which no object has a key twice and which is
read as a document whose collections have names that begin with no dollar sign is read as the same
document without descriptions when it has been compacted.  Both documents give the same stylesheet,
SCSS sheet and list of names under all settings, or the same faults. -/
theorem compact_drops_descriptions :
    (∀ j : Json, j.compact.compact = j.compact) ∧
    ∀ (j : Json) (d : Document), j.IsKeyed → Document.read j = .ok d →
      (∀ e ∈ d.collections, e.1.toList.head? ≠ some '$') →
        Document.read j.compact = .ok d.withoutDescriptions ∧
        ∀ s : Settings, d.withoutDescriptions.toCss s = d.toCss s ∧
          d.withoutDescriptions.toScss s = d.toScss s ∧
          d.withoutDescriptions.toTypeScript s = d.toTypeScript s := by
  refine ⟨Json.compact_compact, fun j d hkeyed h hnames => ⟨read_compact hkeyed h hnames, ?_⟩⟩
  exact fun s => ⟨d.toCss_withoutDescriptions s, d.toScss_withoutDescriptions s,
    d.toTypeScript_withoutDescriptions s⟩

end Document

/-! ### A description and empty extensions -/

/-- Data of a token with a description and extensions of which only some are not empty. -/
def describedData : Json :=
  .object [("collections", .object [("Color", .object [
    ("$description", .text "The colors"),
    ("brand", .object [("$type", .text "color"), ("$value", .text "transparent"),
      ("$description", .text "The brand"),
      ("$extensions", .object [(originKey, .object [("unit", .text "rem")]),
        ("other", .object [])])])])])]

/-- What is left of the data. -/
def undescribedData : Json :=
  .object [("collections", .object [("Color", .object [
    ("brand", .object [("$type", .text "color"), ("$value", .text "transparent"),
      ("$extensions", .object [(originKey, .object [("unit", .text "rem")])])])])])]

/-- The document of the data. -/
def describedDocument : Document :=
  { collections := [("Color", [("brand", .token {
      type := .color
      value := .flat (.literal (.text "transparent"))
      description := some "The brand"
      origin := some { unit := some "rem" } })])] }

/-- The compact data has no descriptions, and neither has the document that is read from it. -/
theorem Document.compact_drops_descriptions_brand :
    describedData.IsKeyed ∧ Document.read describedData = .ok describedDocument ∧
      (∀ e ∈ describedDocument.collections, e.1.toList.head? ≠ some '$') ∧
      describedData.compact = undescribedData ∧
      Document.read undescribedData = .ok describedDocument.withoutDescriptions ∧
      describedDocument.withoutDescriptions.toCss {} = describedDocument.toCss {} := by
  have hkeyed : describedData.IsKeyed := by
    simp [describedData, Json.IsKeyed, Json.FieldsKeyed, OrderedMap.keys, originKey]
  have hread : Document.read describedData = .ok describedDocument := rfl
  have hnames : ∀ e ∈ describedDocument.collections, e.1.toList.head? ≠ some '$' := by
    intro e he
    rw [List.mem_singleton.mp he]
    decide
  have hcompact : describedData.compact = undescribedData := rfl
  obtain ⟨hleft, houtputs⟩ :=
    Document.compact_drops_descriptions.2 describedData describedDocument hkeyed hread hnames
  rw [hcompact] at hleft
  exact ⟨hkeyed, hread, hnames, hcompact, hleft, (houtputs {}).1⟩

end DesignTokens
