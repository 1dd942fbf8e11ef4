import DesignTokens.Proofs.Export.DeclaredNames

/-!
# The list of names and the two layouts

The file of names is made without rendering any value: the names of a collection are sorted on their
own, and the styles follow.  The flat sheet renders the tokens first and sorts them by their names
afterwards, and the sheet with a rule for each mode spreads the tokens of a collection over its
modes.  Still the file of names lists what the flat sheet declares, name by name in the same order,
and the other layout declares the same names (`Document.names_of_toCss`).
-/

namespace DesignTokens

/-! ## Custom properties of sheets -/

/-- A declaration of a property whose name begins like that of a custom property. -/
def Declaration.isCustom (declared : Declaration) : Bool :=
  "--".toList.isPrefixOf declared.property.toList

/-- The custom properties that a sheet declares, in order and as often as they are declared. -/
def customProperties (items : List CssItem) : List String :=
  ((items.flatMap CssItem.declarations).filter Declaration.isCustom).map Declaration.property

/-- A declaration of a custom property is one of some name. -/
lemma Declaration.isCustom_iff {declared : Declaration} :
    declared.isCustom = true ↔ ∃ name, declared = .custom name declared.value := by
  unfold Declaration.isCustom
  rw [List.isPrefixOf_iff_prefix]
  constructor
  · rintro ⟨rest, hrest⟩
    refine ⟨String.ofList rest, ?_⟩
    have hproperty : declared.property = "--" ++ String.ofList rest := by
      apply String.toList_injective
      rw [String.toList_append, ← hrest]
      exact congrArg _ String.toList_ofList.symm
    unfold Declaration.custom
    rw [← hproperty]
  · rintro ⟨name, heq⟩
    rw [heq]
    unfold Declaration.custom
    rw [String.toList_append]
    exact List.prefix_append _ _

/-- The custom properties of a sheet are those of the names that it declares. -/
lemma mem_customProperties {items : List CssItem} {property : String} :
    property ∈ customProperties items ↔ ∃ name, DeclaresName items name ∧ "--" ++ name = property := by
  unfold customProperties
  constructor
  · intro h
    obtain ⟨declared, hdeclared, rfl⟩ := List.mem_map.mp h
    obtain ⟨hmem, hcustom⟩ := List.mem_filter.mp hdeclared
    obtain ⟨name, heq⟩ := Declaration.isCustom_iff.mp hcustom
    refine ⟨name, ⟨declared.value, ?_⟩, (congrArg Declaration.property heq).symm⟩
    unfold Declares
    rwa [← heq]
  · rintro ⟨name, ⟨value, hdeclared⟩, rfl⟩
    exact List.mem_map.mpr ⟨_, List.mem_filter.mpr
      ⟨hdeclared, Declaration.isCustom_iff.mpr ⟨name, rfl⟩⟩, rfl⟩

/-- Declarations of names are declarations of custom properties. -/
lemma customProperties_of_declarations {items : List CssItem} {α : Type} {tokens : List α}
    {name value : α → String}
    (h : items.flatMap CssItem.declarations = tokens.map fun t => .custom (name t) (value t)) :
    customProperties items = tokens.map fun t => "--" ++ name t := by
  unfold customProperties
  rw [h, List.filter_eq_self.mpr, List.map_map]
  · rfl
  · intro declared hdeclared
    obtain ⟨t, _, rfl⟩ := List.mem_map.mp hdeclared
    exact Declaration.isCustom_iff.mpr ⟨name t, rfl⟩

/-- The custom properties of joined sheets are joined. -/
lemma customProperties_append (a b : List CssItem) :
    customProperties (a ++ b) = customProperties a ++ customProperties b := by
  unfold customProperties
  rw [List.flatMap_append, List.filter_append, List.map_append]

/-- A sheet that declares no name has no custom properties. -/
lemma customProperties_eq_nil {items : List CssItem} (h : ∀ name, ¬ DeclaresName items name) :
    customProperties items = [] := by
  refine List.eq_nil_iff_forall_not_mem.mpr fun property hproperty => ?_
  obtain ⟨name, hname, _⟩ := mem_customProperties.mp hproperty
  exact h name hname

/-! ## Declarations of the flat rule -/

/-- Declarations stand in a rule as they are. -/
lemma filterMap_declaration (declarations : List Declaration) :
    (declarations.map BodyItem.declaration).filterMap BodyItem.declaration? = declarations := by
  rw [List.filterMap_map]
  exact List.filterMap_some

namespace Layout

variable {s : Settings}

/-- Blank lines between lists of items are no declarations. -/
lemma filterMap_intercalate_blank (lists : List (List BodyItem)) :
    ([BodyItem.blank].intercalate lists).filterMap BodyItem.declaration? =
      lists.flatMap fun items => items.filterMap BodyItem.declaration? := by
  induction lists with
  | nil => rfl
  | cons first rest ih =>
    cases rest with
    | nil => simp
    | cons second rest =>
      rw [List.intercalate_cons_cons, List.filterMap_append, List.filterMap_append, ih,
        List.flatMap_cons]
      simp [BodyItem.declaration?]

/-- The items of a section hold its declarations in order. -/
lemma filterMap_sectionItems (c : CollectionSection) :
    (sectionItems s c).filterMap BodyItem.declaration? = c.declarations := by
  unfold sectionItems
  rw [List.filterMap_append, filterMap_declaration]
  split_ifs <;> rfl

/-- The flat rule declares what its sections declare one after the other, and then the styles. -/
lemma declarations_flat (sections : List CollectionSection) (styles : List BodyItem) :
    [flat s sections styles].flatMap CssItem.declarations =
      sections.flatMap CollectionSection.declarations ++ styles.filterMap BodyItem.declaration? := by
  rw [List.flatMap_singleton]
  show ([BodyItem.blank].intercalate (sections.map (sectionItems s)) ++ styles).filterMap
    BodyItem.declaration? = _
  rw [List.filterMap_append, filterMap_intercalate_blank, List.flatMap_map]
  simp only [filterMap_sectionItems]

end Layout

/-! ## Rendering for either layout -/

namespace Renderer

variable {r : Renderer}

/-- The renderer for a sheet of the given layout. -/
def laidOut (r : Renderer) (modeSelectors : Bool) : Renderer :=
  { r with settings := { r.settings with modeSelectors } }

/-- The values of modes do not depend on the layout. -/
lemma modeTexts_laidOut (b : Bool) (t : Token) (modes : OrderedMap FlatValue) :
    (r.laidOut b).modeTexts t modes = r.modeTexts t modes := by
  induction modes with
  | nil => rfl
  | cons e rest ih =>
    unfold modeTexts
    rw [ih]
    rfl

/-- Rendered tokens do not depend on the layout. -/
lemma token_laidOut (b : Bool) : (r.laidOut b).token = r.token := by
  funext path t
  unfold token valueOf
  split
  · rfl
  · rw [modeTexts_laidOut]
    rfl

/-- Neither do rendered collections. -/
lemma collections_laidOut (b : Bool) : (r.laidOut b).collections = r.collections := by
  unfold collections tokens
  rw [token_laidOut]
  rfl

/-- Neither do rendered styles. -/
lemma styles_laidOut (b : Bool) : (r.laidOut b).styles = r.styles := by
  unfold styles
  rw [token_laidOut]
  rfl

/-- Neither do classes of styles. -/
lemma classItems_laidOut (b : Bool) (current : Option StyleKind)
    (styles : List (StyleKind × List String × Token)) :
    (r.laidOut b).classItems current styles = r.classItems current styles := by
  induction styles generalizing current with
  | nil => rfl
  | cons style rest ih =>
    unfold classItems
    rw [ih]
    rfl

end Renderer

/-! ## Names of tokens and of rendered tokens -/

namespace Renderer

variable {r : Renderer}

/-- The names of the rendered tokens of a tree are the names that are listed for it, in the same
order. -/
lemma collectionNames_of_tokens {collection : String} {tree : TokenTree}
    {tokens : List RenderedToken} (h : r.tokens collection tree = .ok tokens) :
    Document.collectionNames r.settings collection tree = .ok (tokens.map RenderedToken.name) := by
  unfold Renderer.tokens at h
  obtain ⟨rendered, hrendered, hsorted⟩ := bind_eq_ok.mp h
  have hnames : rendered.map RenderedToken.name =
      (TokenTree.walk [collection] tree).map fun e => r.cssName e.1 :=
    map_of_mapM hrendered fun _ _ htoken => (name_token htoken).1
  have hlisted := @NaturalOrder.sortBy_map String id RenderedToken RenderedToken.name _ _ hsorted
  rw [hnames] at hlisted
  exact hlisted

/-- The names of the rendered collections are those that are listed. -/
lemma mapM_collectionNames {collections : List (String × List RenderedToken)}
    (h : r.collections = .ok collections) :
    ((r.document.selected r.settings).mapM fun (name, tree) =>
      Document.collectionNames r.settings name tree) =
        .ok (collections.map fun e => e.2.map RenderedToken.name) := by
  unfold Renderer.collections at h
  refine mapM_of_mapM h fun entry _ e hrendered => ?_
  obtain ⟨tokens, htokens, heq⟩ := bind_eq_ok.mp hrendered
  cases heq
  exact collectionNames_of_tokens htokens

/-- The names of the rendered styles are those of the paths of the style tokens. -/
lemma map_name_styles {styles : List RenderedToken} (h : r.styles = .ok styles) :
    styles.map RenderedToken.name =
      (r.document.styleTokens r.settings).map fun x => r.cssName (stylePath x.1 x.2.1) := by
  unfold Renderer.styles at h
  exact map_of_mapM h fun _ _ htoken => (name_token htoken).1

end Renderer

/-! ## Both layouts and the list of names -/

/-- Styles are written in one of two ways. -/
lemma StyleOutput.eq_vars_or_eq_classes (output : StyleOutput) :
    output = .vars ∨ output = .classes := by
  cases output with
  | vars => exact Or.inl rfl
  | classes => exact Or.inr rfl

namespace Document

variable {d : Document} {s : Settings}

/-- The properties of rendered collections and styles in a layout. -/
lemma propertyItems_laidOut {r : Renderer} {styles : List BodyItem} {items : List CssItem}
    (h : propertyItems r styles = .ok items) (b : Bool) :
    ∃ items', propertyItems (r.laidOut b) styles = .ok items' := by
  unfold propertyItems at h ⊢
  obtain ⟨collections, hcollections, _⟩ := bind_eq_ok.mp h
  rw [Renderer.collections_laidOut, bind_of_ok hcollections]
  cases b with
  | true => exact ⟨_, rfl⟩
  | false => exact ⟨_, rfl⟩

/-- The sheet of a document whose styles are written as variables. -/
lemma cssItems_vars (houtput : s.styleOutput = .vars) :
    d.cssItems s = (Renderer.styles { document := d, settings := s } >>= fun styles =>
      propertyItems { document := d, settings := s }
        (styles.map fun t => .declaration t.flatDeclaration)) := by
  unfold cssItems
  dsimp only
  split
  · rfl
  · rename_i hclasses
    rw [houtput] at hclasses
    cases hclasses

/-- The sheet of a document whose styles are written as classes. -/
lemma cssItems_classes (houtput : s.styleOutput = .classes) :
    d.cssItems s = (propertyItems { document := d, settings := s } [] >>= fun properties =>
      Renderer.classItems { document := d, settings := s } none (d.styleTokens s) >>= fun classes =>
        pure (properties ++ if classes.isEmpty then [] else [.blank] ++ classes)) := by
  unfold cssItems
  dsimp only
  split
  · rename_i hvars
    rw [houtput] at hvars
    cases hvars
  · rfl

/-- A document that has a sheet in one layout has one in the other. -/
lemma cssItems_laidOut {items : List CssItem} (h : d.cssItems s = .ok items) (b : Bool) :
    ∃ items', d.cssItems { s with modeSelectors := b } = .ok items' := by
  rcases StyleOutput.eq_vars_or_eq_classes s.styleOutput with houtput | houtput
  · rw [cssItems_vars houtput] at h
    obtain ⟨styles, hstyles, h⟩ := bind_eq_ok.mp h
    obtain ⟨items', hitems'⟩ := propertyItems_laidOut h b
    have hlaidOut := (Renderer.styles_laidOut b).trans hstyles
    exact ⟨items', (cssItems_vars (s := { s with modeSelectors := b }) houtput).trans
      ((bind_of_ok hlaidOut _).trans hitems')⟩
  · rw [cssItems_classes houtput] at h
    obtain ⟨properties, hproperties, h⟩ := bind_eq_ok.mp h
    obtain ⟨classes, hclasses, _⟩ := bind_eq_ok.mp h
    obtain ⟨properties', hproperties'⟩ := propertyItems_laidOut hproperties b
    have hlaidOut := (Renderer.classItems_laidOut b none _).trans hclasses
    exact ⟨_, (cssItems_classes (s := { s with modeSelectors := b }) houtput).trans
      ((bind_of_ok hproperties' _).trans (bind_of_ok hlaidOut _))⟩

/-- The flat properties of a document are those of its rendered tokens and of the given styles, in
order. -/
lemma customProperties_flat {r : Renderer} (hflat : r.settings.modeSelectors = false)
    {styles : List RenderedToken} {items : List CssItem}
    (h : propertyItems r (styles.map fun t => .declaration t.flatDeclaration) = .ok items) :
    ∃ names, ((r.document.selected r.settings).mapM fun (name, tree) =>
        collectionNames r.settings name tree) = .ok names ∧
      customProperties items = (names.flatten ++ styles.map RenderedToken.name).map ("--" ++ ·) := by
  unfold propertyItems at h
  obtain ⟨collections, hcollections, h⟩ := bind_eq_ok.mp h
  rw [hflat] at h
  have hitems := Except.ok.inj h
  refine ⟨_, Renderer.mapM_collectionNames hcollections, ?_⟩
  have hdeclarations : items.flatMap CssItem.declarations =
      (collections.flatMap Prod.snd ++ styles).map RenderedToken.flatDeclaration := by
    rw [← hitems]
    refine (Layout.declarations_flat _ _).trans ?_
    have hstyles : (styles.map fun t => BodyItem.declaration t.flatDeclaration).filterMap
        BodyItem.declaration? = styles.map RenderedToken.flatDeclaration := by
      rw [← filterMap_declaration (styles.map RenderedToken.flatDeclaration), List.map_map]
      rfl
    rw [hstyles, List.map_append, List.map_flatMap, List.flatMap_map]
  rw [customProperties_of_declarations hdeclarations, ← List.flatMap_def, List.map_append,
    List.map_append, List.map_flatMap, List.map_flatMap, List.map_map]
  simp only [List.map_map]
  rfl

/-- The flat sheet of a document has the custom properties that are listed. -/
lemma customProperties_of_flat {items : List CssItem} (h : d.cssItems s = .ok items)
    (hflat : s.modeSelectors = false) :
    ∃ names, d.propertyNames s = .ok names ∧ customProperties items = names := by
  unfold propertyNames
  rcases StyleOutput.eq_vars_or_eq_classes s.styleOutput with houtput | houtput
  · rw [cssItems_vars houtput] at h
    obtain ⟨styles, hstyles, h⟩ := bind_eq_ok.mp h
    obtain ⟨names, hnames, hproperties⟩ := customProperties_flat hflat h
    refine ⟨_, bind_of_ok hnames _, ?_⟩
    rw [hproperties, Renderer.map_name_styles hstyles, houtput]
    rfl
  · rw [cssItems_classes houtput] at h
    obtain ⟨properties, hitems, h⟩ := bind_eq_ok.mp h
    obtain ⟨classes, hclasses, h⟩ := bind_eq_ok.mp h
    obtain ⟨names, hnames, hproperties⟩ := @customProperties_flat _ hflat [] _ hitems
    have hnone : customProperties (if classes.isEmpty then [] else [.blank] ++ classes) = [] := by
      split_ifs
      · rfl
      · exact customProperties_eq_nil fun name hname =>
          Renderer.not_declaresName_classItems hclasses name hname
    refine ⟨_, bind_of_ok hnames _, ?_⟩
    rw [← Except.ok.inj h, customProperties_append, hproperties, hnone, houtput, List.append_nil]
    rfl

/-- A document that has a stylesheet has a flat one and one with a rule for each mode, and a file of
names.  The members of the union of custom properties in the file are those that the flat sheet
declares, in order and with repetitions, and the other sheet declares the same ones.  Where there are
none, the file is a comment and has no union. -/
theorem names_of_toCss {text : String} (h : d.toCss s = .ok text) :
    ∃ flat blocks file,
      d.cssItems { s with modeSelectors := false } = .ok flat ∧
      d.cssItems { s with modeSelectors := true } = .ok blocks ∧
      d.toTypeScript s = .ok file ∧
      (customProperties flat ≠ [] → file = fileText .block (d.header s namesTitle)
        (unionLines "CSSVariableName" (customProperties flat) ++ [""] ++ propertiesAugmentation ++
          if (d.classNames s).isEmpty then []
          else [""] ++ unionLines "StyleClassName" (d.classNames s))) ∧
      (customProperties flat = [] →
        file = noNamesText ∧ Text.occursIn "CSSVariableName".toList file.toList = false) ∧
      ∀ property, property ∈ customProperties blocks ↔ property ∈ customProperties flat := by
  obtain ⟨items, hitems, _⟩ := bind_eq_ok.mp h
  obtain ⟨flat, hflat⟩ := cssItems_laidOut hitems false
  obtain ⟨blocks, hblocks⟩ := cssItems_laidOut hitems true
  obtain ⟨_, hnames, rfl⟩ := customProperties_of_flat hflat rfl
  have hfile : d.toTypeScript s = .ok
      (namesText (d.header s namesTitle) (customProperties flat) (d.classNames s)) :=
    bind_of_ok hnames _
  refine ⟨flat, blocks, _, hflat, hblocks, hfile, fun hne => ?_, fun hnil => ?_, fun property => ?_⟩
  · exact if_neg fun hempty => hne (List.isEmpty_iff.mp hempty)
  · have hfile : namesText (d.header s namesTitle) (customProperties flat) (d.classNames s) =
        noNamesText := if_pos (List.isEmpty_iff.mpr hnil)
    rw [hfile]
    exact ⟨rfl, by decide⟩
  · simp only [mem_customProperties, declaresName_cssItems hflat, declaresName_cssItems hblocks]
    rfl

end Document

/-! ### Two tokens with one name -/

/-- A token with a value for each of two modes. -/
def dimmed : Token :=
  { type := .boolean
    value := .perMode [("Light", .literal (.bool false)), ("Dark", .literal (.bool true))] }

/-- A document with two tokens that have the same name in stylesheets. -/
def dimDocument : Document :=
  { collections := [("Theme", [("dim", .token dimmed),
      ("Dim", .token { type := .boolean, value := .flat (.literal (.bool true)) })])] }

/-- The flat sheet of the document. -/
def dimSheet : List CssItem :=
  [Layout.flat {} [⟨"Theme", [.custom "theme-dim" "0", .custom "theme-dim" "1"]⟩] []]

/-- The tokens of the document as they are rendered. -/
def dimTokens : List RenderedToken :=
  [⟨"theme-dim", .perMode [("Light", "0"), ("Dark", "1")]⟩, ⟨"theme-dim", .single "1"⟩]

/-- The tokens are in order. -/
lemma sortBy_dimTokens : NaturalOrder.sortBy RenderedToken.name dimTokens = .ok dimTokens := by
  have hkey : NaturalOrder.key "theme-dim" = .ok [.text "theme-dim", .whole "theme-dim"] := rfl
  have hkeyed : dimTokens.mapM (fun t => do return (← NaturalOrder.key t.name, t)) =
      .ok (dimTokens.map fun t => ([.text "theme-dim", .whole "theme-dim"], t)) := by
    unfold dimTokens
    rw [List.mapM_cons, hkey, List.mapM_cons, hkey]
    rfl
  refine NaturalOrder.sortBy_of_pairwise hkeyed ?_
  simp [dimTokens, NaturalOrder.before]

/-- The sheet is the one of the document. -/
lemma cssItems_dimDocument : dimDocument.cssItems {} = .ok dimSheet := by
  have htokens : Renderer.tokens { document := dimDocument, settings := {} } "Theme"
      [("dim", .token dimmed),
        ("Dim", .token { type := .boolean, value := .flat (.literal (.bool true)) })] =
      .ok dimTokens := by
    unfold Renderer.tokens
    exact (bind_of_ok rfl _).trans sortBy_dimTokens
  have hcollections : Renderer.collections { document := dimDocument, settings := {} } =
      .ok [("Theme", dimTokens)] :=
    mapM_singleton (bind_of_ok htokens _)
  show Document.propertyItems { document := dimDocument, settings := {} } [] = _
  unfold Document.propertyItems
  exact bind_of_ok hcollections _

/-- The name is declared twice by the flat sheet and listed twice. -/
theorem Document.names_of_toCss_dim :
    dimDocument.toCss {} = .ok (cssText (dimDocument.header {} cssTitle) dimSheet) ∧
      dimDocument.toTypeScript {} = .ok (fileText .block (dimDocument.header {} namesTitle)
        (unionLines "CSSVariableName" ["--theme-dim", "--theme-dim"] ++ [""] ++
          propertiesAugmentation)) ∧
      ∃ blocks, dimDocument.cssItems { modeSelectors := true } = .ok blocks ∧
        ∀ property, property ∈ customProperties blocks ↔ property = "--theme-dim" := by
  have hcss : dimDocument.toCss {} = .ok (cssText (dimDocument.header {} cssTitle) dimSheet) :=
    bind_of_ok cssItems_dimDocument _
  obtain ⟨flat, blocks, file, hflat, hblocks, hfile, hunion, _, hsame⟩ :=
    Document.names_of_toCss hcss
  have hsheet : dimSheet = flat := Except.ok.inj (cssItems_dimDocument.symm.trans hflat)
  have hproperties : customProperties flat = ["--theme-dim", "--theme-dim"] := by
    rw [← hsheet]
    decide
  rw [hproperties] at hunion hsame
  refine ⟨hcss, hfile.trans (congrArg Except.ok (hunion (List.cons_ne_nil _ _))), blocks, hblocks,
    fun property => (hsame property).trans ?_⟩
  simp

end DesignTokens
