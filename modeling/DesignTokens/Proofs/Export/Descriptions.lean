import DesignTokens.Export.Outputs
import DesignTokens.Proofs.Token.Descriptions

/-!
# Outputs and descriptions

Stylesheets, SCSS sheets and lists of names show the types, values and origins of tokens, but no
descriptions.  A document gives the same texts without its descriptions, and the same faults
(`Document.toCss_withoutDescriptions`, `Document.toScss_withoutDescriptions`,
`Document.toTypeScript_withoutDescriptions`).
-/

namespace DesignTokens

/-! ## What is exported -/

namespace Document

variable (d : Document) (s : Settings)

/-- The same collections are selected. -/
lemma selected_withoutDescriptions : d.withoutDescriptions.selected s =
    (d.selected s).map fun (name, tree) =>
      (name, TokenTree.mapTokens Token.withoutDescription tree) := by
  unfold selected
  split_ifs
  · rfl
  · exact List.filter_map

/-- The trees of the same kinds of styles are selected. -/
lemma selectedStyles_withoutDescriptions : d.withoutDescriptions.selectedStyles s =
    (d.selectedStyles s).map fun (kind, tree) =>
      (kind, TokenTree.mapTokens Token.withoutDescription tree) := by
  have hpresent : d.withoutDescriptions.presentStyles = d.presentStyles.map fun (name, tree) =>
      (name, TokenTree.mapTokens Token.withoutDescription tree) :=
    d.presentStyles_mapTokens Token.withoutDescription
  unfold selectedStyles
  split_ifs
  · rw [hpresent, List.map_filterMap]
    refine List.filterMap_congr fun kind _ => ?_
    rw [OrderedMap.find?_map, Option.map_map, Option.map_map]
    rfl
  · rfl

/-- The style tokens have the same places. -/
lemma styleTokens_withoutDescriptions : d.withoutDescriptions.styleTokens s =
    (d.styleTokens s).map fun (kind, path, t) => (kind, path, t.withoutDescription) := by
  unfold styleTokens
  rw [selectedStyles_withoutDescriptions, List.flatMap_map, List.map_flatMap]
  refine congrArg (List.flatMap · _) (funext fun e => ?_)
  simp only [TokenTree.walk_mapTokens, List.map_map]
  rfl

end Document

/-! ## Rendering -/

namespace Renderer

/-- The renderer for the document without descriptions. -/
def withoutDescriptions (r : Renderer) : Renderer :=
  { r with document := r.document.withoutDescriptions }

variable (r : Renderer)

/-- References are shown by the same names. -/
lemma referenceText_withoutDescriptions (reference : String) :
    r.withoutDescriptions.referenceText reference = r.referenceText reference := by
  have hpath : r.withoutDescriptions.referencePath reference = r.referencePath reference :=
    congrArg (Option.getD · _)
      (Document.resolveReference_mapTokens Token.withoutDescription r.document reference)
  unfold referenceText
  rw [hpath]
  rfl

/-- Quoted paths of calculations are found at the same places. -/
lemma findPath?_withoutDescriptions (path : String) :
    r.withoutDescriptions.findPath? path = r.findPath? path := by
  have hdotted : r.withoutDescriptions.document.resolveReference path =
      r.document.resolveReference path :=
    Document.resolveReference_mapTokens Token.withoutDescription r.document path
  have hslashes : r.withoutDescriptions.document.resolvePath path =
      (r.document.resolvePath path).map (Option.map fun e => (e.1, e.2.withoutDescription)) :=
    Document.resolvePath_mapTokens Token.withoutDescription r.document path
  unfold findPath?
  rw [hdotted, hslashes]
  cases r.document.resolvePath path with
  | error e => rfl
  | ok found => cases found <;> rfl

/-- Calculations are written out in the same way. -/
lemma calculationText_withoutDescriptions (text : String) :
    r.withoutDescriptions.calculationText text = r.calculationText text := by
  have hpiece : r.withoutDescriptions.pieceText = r.pieceText := by
    funext p
    cases p with
    | plain c => rfl
    | reference ref =>
      cases ref with
      | property raw => rfl
      | path raw =>
        unfold pieceText
        dsimp only
        rw [findPath?_withoutDescriptions]
        rfl
  unfold calculationText
  rw [hpiece]
  rfl

/-- A single value of a token does not depend on the description. -/
lemma flatText_withoutDescription (t : Token) (value : FlatValue) :
    r.withoutDescriptions.flatText t.withoutDescription value = r.flatText t value := by
  cases value with
  | reference path => exact congrArg Except.ok (r.referenceText_withoutDescriptions path)
  | literal l =>
    cases l with
    | number x =>
      unfold flatText literalText
      rw [funext r.calculationText_withoutDescriptions]
      rfl
    | _ => rfl

/-- Neither does its value. -/
lemma valueOf_withoutDescription (t : Token) :
    r.withoutDescriptions.valueOf t.withoutDescription = r.valueOf t := by
  have hmodes : ∀ modes, r.withoutDescriptions.modeTexts t.withoutDescription modes =
      r.modeTexts t modes := by
    intro modes
    induction modes with
    | nil => rfl
    | cons e rest ih => rw [modeTexts, modeTexts, flatText_withoutDescription, ih]
  unfold valueOf
  rw [show t.withoutDescription.value = t.value from rfl]
  split
  · rw [flatText_withoutDescription]
  · rw [hmodes]

/-- Rendered tokens do not depend on descriptions. -/
lemma token_withoutDescription (path : List String) (t : Token) :
    r.withoutDescriptions.token path t.withoutDescription = r.token path t := by
  unfold token
  rw [valueOf_withoutDescription]
  rfl

/-- The tokens of a collection are rendered in the same order. -/
lemma tokens_withoutDescriptions (collection : String) (tree : TokenTree) :
    r.withoutDescriptions.tokens collection (TokenTree.mapTokens Token.withoutDescription tree) =
      r.tokens collection tree := by
  unfold tokens
  rw [TokenTree.walk_mapTokens, List.mapM_map]
  simp only [Function.comp_def, token_withoutDescription]

/-- The selected collections are rendered alike. -/
lemma collections_withoutDescriptions : r.withoutDescriptions.collections = r.collections := by
  unfold collections
  rw [show r.withoutDescriptions.document.selected r.withoutDescriptions.settings = _ from
    r.document.selected_withoutDescriptions r.settings, List.mapM_map]
  simp only [Function.comp_def, tokens_withoutDescriptions]

/-- The styles are rendered alike. -/
lemma styles_withoutDescriptions : r.withoutDescriptions.styles = r.styles := by
  unfold styles
  rw [show r.withoutDescriptions.document.styleTokens r.withoutDescriptions.settings = _ from
    r.document.styleTokens_withoutDescriptions r.settings, List.mapM_map]
  simp only [Function.comp_def, token_withoutDescription]

/-- The classes of a style token set the same properties. -/
lemma classProperties_withoutDescription (kind : StyleKind) (t : Token) :
    r.withoutDescriptions.classProperties kind t.withoutDescription = r.classProperties kind t := by
  unfold classProperties
  rw [show t.withoutDescription.flatValue? = t.flatValue? from rfl]
  simp only [flatText_withoutDescription]
  rfl

/-- The same utility classes are written. -/
lemma classItems_withoutDescriptions (current : Option StyleKind)
    (styles : List (StyleKind × List String × Token)) :
    r.withoutDescriptions.classItems current
        (styles.map fun (kind, path, t) => (kind, path, t.withoutDescription)) =
      r.classItems current styles := by
  induction styles generalizing current with
  | nil => rfl
  | cons style rest ih =>
    obtain ⟨kind, path, t⟩ := style
    rw [List.map_cons]
    unfold classItems
    rw [classProperties_withoutDescription, ih]
    rfl

/-- The same mixin is written for a style token. -/
lemma mixinItem_withoutDescription (kind : StyleKind) (path : List String) (t : Token) :
    r.withoutDescriptions.mixinItem kind path t.withoutDescription = r.mixinItem kind path t := by
  unfold mixinItem
  rw [show t.withoutDescription.flatValue? = t.flatValue? from rfl]
  simp only [flatText_withoutDescription, classProperties_withoutDescription]
  rfl

/-- The same mixins are written. -/
lemma mixinItems_withoutDescriptions : r.withoutDescriptions.mixinItems = r.mixinItems := by
  unfold mixinItems
  rw [show r.withoutDescriptions.document.styleTokens r.withoutDescriptions.settings = _ from
    r.document.styleTokens_withoutDescriptions r.settings, List.mapM_map]
  simp only [Function.comp_def, mixinItem_withoutDescription]

end Renderer

/-! ## Outputs -/

namespace Document

variable (d : Document) (s : Settings)

/-- The same custom properties are laid out. -/
lemma propertyItems_withoutDescriptions (r : Renderer) (styles : List BodyItem) :
    propertyItems r.withoutDescriptions styles = propertyItems r styles := by
  unfold propertyItems
  rw [Renderer.collections_withoutDescriptions]
  rfl

/-- The stylesheet of a document does not depend on descriptions. -/
theorem toCss_withoutDescriptions : d.withoutDescriptions.toCss s = d.toCss s := by
  have hproperties : ∀ styles, propertyItems ⟨d.withoutDescriptions, s, .css⟩ styles =
      propertyItems ⟨d, s, .css⟩ styles :=
    propertyItems_withoutDescriptions ⟨d, s, .css⟩
  have hstyles : Renderer.styles ⟨d.withoutDescriptions, s, .css⟩ = Renderer.styles ⟨d, s, .css⟩ :=
    Renderer.styles_withoutDescriptions ⟨d, s, .css⟩
  have hclasses : Renderer.classItems ⟨d.withoutDescriptions, s, .css⟩ none
      (d.withoutDescriptions.styleTokens s) =
        Renderer.classItems ⟨d, s, .css⟩ none (d.styleTokens s) := by
    rw [styleTokens_withoutDescriptions]
    exact Renderer.classItems_withoutDescriptions ⟨d, s, .css⟩ none (d.styleTokens s)
  have hitems : d.withoutDescriptions.cssItems s = d.cssItems s := by
    unfold cssItems
    dsimp only
    rw [hstyles, hclasses]
    simp only [hproperties]
  unfold toCss
  rw [hitems]
  rfl

/-- The SCSS sheet of a document does not depend on descriptions. -/
theorem toScss_withoutDescriptions : d.withoutDescriptions.toScss s = d.toScss s := by
  have hcollections : Renderer.collections ⟨d.withoutDescriptions, s, .scss⟩ =
      Renderer.collections ⟨d, s, .scss⟩ :=
    Renderer.collections_withoutDescriptions ⟨d, s, .scss⟩
  have hstyles : scssStyleItems ⟨d.withoutDescriptions, s, .scss⟩ =
      scssStyleItems ⟨d, s, .scss⟩ := by
    unfold scssStyleItems
    rw [show Renderer.styles ⟨d.withoutDescriptions, s, .scss⟩ = _ from
        Renderer.styles_withoutDescriptions ⟨d, s, .scss⟩,
      show Renderer.mixinItems ⟨d.withoutDescriptions, s, .scss⟩ = _ from
        Renderer.mixinItems_withoutDescriptions ⟨d, s, .scss⟩]
  have hitems : d.withoutDescriptions.scssItems s = d.scssItems s := by
    unfold scssItems
    dsimp only
    rw [hcollections, hstyles, styleTokens_withoutDescriptions, List.isEmpty_map]
  unfold toScss
  rw [hitems]
  rfl

/-- The list of names of a document does not depend on descriptions. -/
theorem toTypeScript_withoutDescriptions :
    d.withoutDescriptions.toTypeScript s = d.toTypeScript s := by
  have hproperties : d.withoutDescriptions.propertyNames s = d.propertyNames s := by
    unfold propertyNames collectionNames
    rw [selected_withoutDescriptions, styleTokens_withoutDescriptions, List.mapM_map]
    simp only [Function.comp_def, TokenTree.walk_mapTokens, List.map_map]
  have hclasses : d.withoutDescriptions.classNames s = d.classNames s := by
    unfold classNames
    rw [styleTokens_withoutDescriptions]
    simp only [List.flatMap_map]
  unfold toTypeScript
  rw [hproperties, hclasses]
  rfl

end Document

end DesignTokens
