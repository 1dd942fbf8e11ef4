import DesignTokens.Proofs.Export.DeclaredNames
import DesignTokens.Proofs.Export.Routes
import DesignTokens.Proofs.Token.Library
import DesignTokens.Proofs.Token.DottedPath

/-!
# Selected collections in outputs of documents

Collections are selected twice on the way to an output.  A document is made of the collections whose
id or name is selected, and all of them stand in its data.  Sheets and lists of names show those
collections of a document whose name is selected, since a document keeps no ids.  So all outputs show
the same collections if and only if every collection that is selected by its id is also selected by
its name.
-/

namespace DesignTokens

/-! ## Selections -/

namespace Collection

variable {selected : List String} {collections : List Collection} {c : Collection}

/-- The collections whose name is selected; all of them when nothing is selected. -/
def selectNamed (selected : List String) (collections : List Collection) : List Collection :=
  if selected.isEmpty then collections
  else collections.filter fun c => selected.contains c.name

/-- A selected collection is one whose id or name is selected, if anything is. -/
lemma mem_select : c ∈ select selected collections ↔
    c ∈ collections ∧ (selected = [] ∨ c.id ∈ selected ∨ c.name ∈ selected) := by
  unfold select
  split_ifs with hempty
  · simp [List.isEmpty_iff.mp hempty]
  · have hne : selected ≠ [] := fun h => hempty (List.isEmpty_iff.mpr h)
    simp [hne]

/-- A collection that is selected by its name is one whose name is selected, if anything is. -/
lemma mem_selectNamed : c ∈ selectNamed selected collections ↔
    c ∈ collections ∧ (selected = [] ∨ c.name ∈ selected) := by
  unfold selectNamed
  split_ifs with hempty
  · simp [List.isEmpty_iff.mp hempty]
  · have hne : selected ≠ [] := fun h => hempty (List.isEmpty_iff.mpr h)
    simp [hne]

/-- Selecting by names leaves out nothing that is selected if and only if every collection that is
selected by its id is selected by its name. -/
theorem selectNamed_eq_select_iff : selectNamed selected collections = select selected collections ↔
    ∀ c ∈ collections, c.id ∈ selected → c.name ∈ selected := by
  constructor
  · intro heq c hc hid
    have hselected : c ∈ select selected collections := mem_select.mpr ⟨hc, Or.inr (Or.inl hid)⟩
    rw [← heq] at hselected
    rcases (mem_selectNamed.mp hselected).2 with hnone | hname
    · rw [hnone] at hid
      exact (List.not_mem_nil hid).elim
    · exact hname
  · intro hall
    unfold selectNamed select
    split_ifs with hempty
    · rfl
    · refine List.filter_congr fun c hc => ?_
      have hname : c.id ∈ selected → c.name ∈ selected := hall c hc
      by_cases hid : c.id ∈ selected
      · simp [hname hid]
      · simp [hid]

end Collection

/-! ## Data of documents -/

namespace Json

/-- A field that is left in a compact object: no description, and no extensions that are all
empty. -/
def StaysCompact (name : String) (value : Json) : Prop :=
  name ≠ "$description" ∧ (name = "$extensions" → ∀ extensions, value = object extensions →
    fullExtensions extensions ≠ [])

/-- A name stands in a compact object if one of its fields is left there. -/
lemma exists_mem_compactFields {fields : List (String × Json)} {name : String} :
    (∃ value, (name, value) ∈ compactFields fields) ↔
      ∃ value, (name, value) ∈ fields ∧ StaysCompact name value := by
  induction fields with
  | nil => simp [compactFields]
  | cons field rest ih =>
    obtain ⟨key, value⟩ := field
    have hout : ¬ StaysCompact key value → ((∃ x, (name, x) ∈ compactFields rest) ↔
        ∃ x, (name, x) ∈ (key, value) :: rest ∧ StaysCompact name x) := by
      intro hnot
      rw [ih]
      constructor
      · rintro ⟨x, hx, hstays⟩
        exact ⟨x, List.mem_cons_of_mem _ hx, hstays⟩
      · rintro ⟨x, hx, hstays⟩
        rcases List.mem_cons.mp hx with heq | hrest
        · cases heq
          exact absurd hstays hnot
        · exact ⟨x, hrest, hstays⟩
    have hin : ∀ compacted, StaysCompact key value →
        ((∃ x, (name, x) ∈ (key, compacted) :: compactFields rest) ↔
          ∃ x, (name, x) ∈ (key, value) :: rest ∧ StaysCompact name x) := by
      intro compacted hstays
      constructor
      · rintro ⟨x, hx⟩
        rcases List.mem_cons.mp hx with heq | hrest
        · cases heq
          exact ⟨value, List.mem_cons_self, hstays⟩
        · obtain ⟨y, hy, hleft⟩ := ih.mp ⟨x, hrest⟩
          exact ⟨y, List.mem_cons_of_mem _ hy, hleft⟩
      · rintro ⟨x, hx, hleft⟩
        rcases List.mem_cons.mp hx with heq | hrest
        · cases heq
          exact ⟨compacted, List.mem_cons_self⟩
        · obtain ⟨y, hy⟩ := ih.mpr ⟨x, hrest, hleft⟩
          exact ⟨y, List.mem_cons_of_mem _ hy⟩
    unfold compactFields
    split_ifs with hdescription hvalue
    · exact hout fun hstays => hstays.1 hdescription
    · exact hin value ⟨hdescription, fun hextensions => by
        rw [hvalue] at hextensions
        exact absurd hextensions (by decide)⟩
    · split
      · rename_i extensions
        split
        · rename_i hempty
          exact hout fun hstays => hstays.2 rfl extensions rfl hempty
        · rename_i full hfull
          refine hin _ ⟨hdescription, ?_⟩
          rintro _ _ ⟨rfl⟩
          exact hfull
      · rename_i hother
        exact hin _ ⟨hdescription, fun hkey extensions hobject =>
          (hother extensions hkey hobject).elim⟩

/-- A populated node is data that counts as present. -/
lemma isTruthy_of_isPopulated {node : TokenNode} (h : node.IsPopulated) :
    node.toJson.isTruthy = true := by
  cases h with
  | token t => rfl
  | @group children hne _ =>
    obtain ⟨child, rest, rfl⟩ := List.exists_cons_of_ne_nil hne
    rfl

/-- A populated tree stays in a compact object, unless its name is that of a description, or it is
empty and its name is that of extensions. -/
lemma staysCompact_toJson {tree : TokenTree} (h : ∀ child ∈ tree, child.2.IsPopulated)
    {name : String} : StaysCompact name tree.toJson ↔
      name ≠ "$description" ∧ (name = "$extensions" → tree ≠ []) := by
  refine and_congr Iff.rfl (imp_congr Iff.rfl ?_)
  constructor
  · rintro hfull rfl
    exact hfull _ rfl rfl
  · intro hne extensions heq
    obtain ⟨⟨first, node⟩, rest, rfl⟩ := List.exists_cons_of_ne_nil hne
    have hnode : node.toJson.isTruthy = true := isTruthy_of_isPopulated (h _ List.mem_cons_self)
    have hfirst : (first, node.toJson) ∈ fullExtensions extensions := by
      rw [← object.inj heq]
      exact List.mem_filter.mpr ⟨List.mem_cons_self, hnode⟩
    exact List.ne_nil_of_mem hfirst

end Json

namespace Document

variable {d : Document} {s : Settings} {name : String}

/-- The data that the text of a document is written from has the trees of certain collections. -/
def HasInData (d : Document) (s : Settings) (shown : String → Prop) : Prop :=
  ∃ data trees, d.toJsonText s = Json.render { Json.Style.indented with wholeAsInt := true } data ∧
    data.field? "collections" = some (.object trees) ∧
    ∀ name, (∃ tree, (name, tree) ∈ trees) ↔ shown name

/-- The trees in the data of a document are those of its collections. -/
lemma mem_map_toJson {json : Json} :
    (name, json) ∈ d.collections.map (fun (name, tree) => (name, TokenTree.toJson tree)) ↔
      ∃ tree, (name, tree) ∈ d.collections ∧ TokenTree.toJson tree = json := by
  rw [List.mem_map]
  constructor
  · rintro ⟨⟨_, tree⟩, he, heq⟩
    cases heq
    exact ⟨tree, he, rfl⟩
  · rintro ⟨tree, he, rfl⟩
    exact ⟨(name, tree), he, rfl⟩

/-- All collections of a document stand in its data, but for those that a compact document leaves
out because of their names. -/
lemma hasInData (h : ∀ e ∈ d.collections, ∀ child ∈ e.2, child.2.IsPopulated) :
    d.HasInData s fun name => ∃ tree, (name, tree) ∈ d.collections ∧ (s.compactJson = true →
      name ≠ "$description" ∧ (name = "$extensions" → tree ≠ [])) := by
  cases hcompact : s.compactJson with
  | false =>
    refine ⟨d.toJson, _, by unfold toJsonText; rw [hcompact]; rfl, rfl, fun name => ?_⟩
    simp [mem_map_toJson]
  | true =>
    refine ⟨d.toJson.compact, _, by unfold toJsonText; rw [hcompact]; rfl, rfl, fun name => ?_⟩
    rw [Json.exists_mem_compactFields]
    constructor
    · rintro ⟨json, hjson, hstays⟩
      obtain ⟨tree, htree, rfl⟩ := mem_map_toJson.mp hjson
      exact ⟨tree, htree, fun _ => (Json.staysCompact_toJson (h _ htree)).mp hstays⟩
    · rintro ⟨tree, htree, hname⟩
      exact ⟨_, mem_map_toJson.mpr ⟨tree, htree, rfl⟩,
        (Json.staysCompact_toJson (h _ htree)).mpr (hname rfl)⟩

end Document

/-! ## Names of variables -/

namespace Scope

variable {scope : Scope} {s : Settings} {c : Collection} {tree : TokenTree} {name : String}

/-- A variable of a collection that has a token has a name in the outputs of documents. -/
def NamesToken (scope : Scope) (s : Settings) (c : Collection) (name : String) : Prop :=
  ∃ rawName, scope.HasToken c rawName ∧ s.cssName (c.name ++ "/" ++ rawName) = name

/-- The names of the tree of a collection are those of its variables with tokens. -/
lemma exists_name_tree (htree : scope.tree c = .ok tree) :
    (∃ x ∈ TokenTree.walk [c.name] tree, s.cssName ("/".intercalate x.1) = name) ↔
      scope.NamesToken s c name := by
  unfold NamesToken
  constructor
  · rintro ⟨⟨path, token⟩, hwalk, hname⟩
    obtain ⟨rest, rfl, hrest⟩ := TokenTree.mem_walk_singleton.mp hwalk
    obtain ⟨rawName, htoken, rfl⟩ := (exists_mem_tree_iff htree).mp ⟨token, hrest⟩
    rw [intercalate_cons_nameSegments] at hname
    exact ⟨rawName, htoken, hname⟩
  · rintro ⟨rawName, htoken, hname⟩
    obtain ⟨token, hrest⟩ := (exists_mem_tree_iff htree).mpr ⟨rawName, htoken, rfl⟩
    refine ⟨(c.name :: nameSegments rawName, token),
      TokenTree.mem_walk_singleton.mpr ⟨_, rfl, hrest⟩, ?_⟩
    rw [intercalate_cons_nameSegments]
    exact hname

/-- The tree of a collection is not empty if the collection has a variable with a token. -/
lemma ne_nil_iff_exists_hasToken (htree : scope.tree c = .ok tree) :
    tree ≠ [] ↔ ∃ rawName, scope.HasToken c rawName := by
  constructor
  · intro hne
    obtain ⟨child, hchild⟩ := List.exists_mem_of_ne_nil tree hne
    obtain ⟨⟨path, token⟩, he, _⟩ := TokenTree.exists_mem_walk_of_mem hchild
      ((isSerial_tree htree).populated child hchild) []
    obtain ⟨rawName, htoken, _⟩ := (exists_mem_tree_iff htree).mp ⟨token, he⟩
    exact ⟨rawName, htoken⟩
  · rintro ⟨rawName, htoken⟩ rfl
    obtain ⟨token, he⟩ := (exists_mem_tree_iff htree).mpr ⟨rawName, htoken, rfl⟩
    exact List.not_mem_nil he

end Scope

namespace Document

section library

variable {library : Library} {s : Settings} {styles : Option Styles} {sourceFile generatedAt : String}
  {d : Document} {name : String}

variable (h : Document.ofLibrary library s s.documentOptions styles sourceFile generatedAt = .ok d)
  (hnames : (library.collections.map Collection.name).Nodup)

include h hnames

/-- A collection whose id or name is selected has its tree in the document. -/
lemma exists_isEntryOf {c : Collection}
    (hc : c ∈ Collection.select s.selection library.collections) :
    ∃ tree, (c.name, tree) ∈ d.collections ∧ (Scope.ofSettings library s).tree c = .ok tree := by
  have hselected : ((Collection.select s.selection library.collections).map
      Collection.name).Nodup := by
    refine hnames.sublist (List.Sublist.map _ ?_)
    unfold Collection.select
    split_ifs
    · exact List.Sublist.refl _
    · exact List.filter_sublist
  obtain ⟨⟨_, tree⟩, he, rfl, htree⟩ := exists_of_forall₂ (forall₂_collections h hselected) hc
  exact ⟨tree, he, htree⟩

/-- The tokens that are shown have the names of the variables with tokens in the collections that
are selected by their names. -/
lemma namesToken_iff :
    d.NamesToken s name ↔ ∃ c ∈ Collection.selectNamed s.selection library.collections,
      (Scope.ofSettings library s).NamesToken s c name := by
  constructor
  · rintro ⟨⟨collection, tree⟩, he, hx⟩
    obtain ⟨hmem, hselected⟩ := mem_selected_iff.mp he
    obtain ⟨c, hc, rfl, htree⟩ := exists_of_mem_collections h hmem
    exact ⟨c, Collection.mem_selectNamed.mpr ⟨(Collection.mem_select.mp hc).1, hselected⟩,
      (Scope.exists_name_tree htree).mp hx⟩
  · rintro ⟨c, hc, hname⟩
    obtain ⟨hlibrary, hselected⟩ := Collection.mem_selectNamed.mp hc
    obtain ⟨tree, hmem, htree⟩ := exists_isEntryOf h hnames
      (Collection.mem_select.mpr ⟨hlibrary, hselected.imp_right Or.inr⟩)
    exact ⟨_, mem_selected_iff.mpr ⟨hmem, hselected⟩, (Scope.exists_name_tree htree).mpr hname⟩

/-- The data of a document has the collections whose id or name is selected, and its sheets and its
list of names declare the tokens of those whose name is selected; so all of them agree if and only if
every collection that is selected by its id is also selected by its name.  Compact data has no
collection with the name of a description, nor an empty one with the name of extensions. -/
theorem collections_of_outputs :
    (d.HasInData s fun name => ∃ c ∈ Collection.select s.selection library.collections,
        c.name = name ∧ (s.compactJson = true → name ≠ "$description" ∧ (name = "$extensions" →
          ∃ rawName, (Scope.ofSettings library s).HasToken c rawName))) ∧
      (d.DeclaresExactly s fun name =>
        (∃ c ∈ Collection.selectNamed s.selection library.collections,
          (Scope.ofSettings library s).NamesToken s c name) ∨ d.NamesStyle s name) ∧
      (Collection.selectNamed s.selection library.collections =
          Collection.select s.selection library.collections ↔
        ∀ c ∈ library.collections, c.id ∈ s.selection → c.name ∈ s.selection) := by
  refine ⟨?_, ?_, Collection.selectNamed_eq_select_iff⟩
  · obtain ⟨data, trees, hdata, hfield, hshown⟩ := hasInData (d := d) (s := s) fun e he =>
      (isSerial_ofLibrary h e (List.mem_append_left _ he)).populated
    refine ⟨data, trees, hdata, hfield, fun name => (hshown name).trans ⟨?_, ?_⟩⟩
    · rintro ⟨tree, hmem, hname⟩
      obtain ⟨c, hc, heq, htree⟩ := exists_of_mem_collections h hmem
      refine ⟨c, hc, heq.symm, fun hcompact => (hname hcompact).imp_right fun hfull hext => ?_⟩
      exact (Scope.ne_nil_iff_exists_hasToken htree).mp (hfull hext)
    · rintro ⟨c, hc, rfl, hname⟩
      obtain ⟨tree, hmem, htree⟩ := exists_isEntryOf h hnames hc
      refine ⟨tree, hmem, fun hcompact => (hname hcompact).imp_right fun hfull hext => ?_⟩
      exact (Scope.ne_nil_iff_exists_hasToken htree).mpr (hfull hext)
  · have hdeclares := d.declaresExactly s
    simp only [namesToken_iff h hnames] at hdeclares
    exact hdeclares

end library

end Document

/-! ### A collection selected by its id -/

/-- Settings that select a collection by its id alone. -/
def idSelection : Settings := { selected := some ["scale"] }

/-- The document is that of the library. -/
lemma ofLibrary_idSelection : Document.ofLibrary scaleLibrary idSelection
    idSelection.documentOptions none "scale.fig" "" = .ok scaleDocument :=
  ofLibrary_scale

/-- A collection that is selected by its id stands in the data, but the stylesheet has none of its
tokens. -/
theorem Document.collections_of_outputs_idSelection :
    Document.ofLibrary scaleLibrary idSelection idSelection.documentOptions none "scale.fig" "" =
        .ok scaleDocument ∧
      (scaleLibrary.collections.map Collection.name).Nodup ∧
      (scaleDocument.HasInData idSelection fun name => name = "Scale") ∧
      ∃ items, scaleDocument.cssItems idSelection = .ok items ∧ ∀ name, ¬ DeclaresName items name := by
  have hnames : (scaleLibrary.collections.map Collection.name).Nodup := by decide
  obtain ⟨⟨data, trees, hdata, hfield, hshown⟩, hdeclares, _⟩ :=
    Document.collections_of_outputs ofLibrary_idSelection hnames
  have hkept : Collection.select idSelection.selection scaleLibrary.collections =
      [scaleCollection] := by decide
  have hnamed : Collection.selectNamed idSelection.selection scaleLibrary.collections = [] := by
    decide
  have hitems : scaleDocument.cssItems idSelection = .ok [Layout.flat idSelection [] []] := rfl
  refine ⟨ofLibrary_idSelection, hnames, ⟨data, trees, hdata, hfield, fun name => ?_⟩,
    _, hitems, fun name hname => ?_⟩
  · rw [hshown, hkept]
    constructor
    · rintro ⟨c, hc, rfl, _⟩
      rw [List.mem_singleton.mp hc]
      rfl
    · rintro rfl
      exact ⟨scaleCollection, List.mem_singleton.mpr rfl, rfl, nofun⟩
  · rw [hdeclares.css _ hitems, hnamed] at hname
    rcases hname with ⟨c, hc, _⟩ | ⟨_, x, hx, _⟩
    · exact List.not_mem_nil hc
    · exact List.not_mem_nil hx

end DesignTokens
