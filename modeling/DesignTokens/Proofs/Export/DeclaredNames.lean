import DesignTokens.Export.DocumentNames
import DesignTokens.Export.DocumentScss
import DesignTokens.Proofs.Export.Sheets

/-!
# Names that outputs of documents declare

The stylesheet of a document, its SCSS sheet and its list of names are made in different ways, and
the stylesheet has two layouts.  Yet all of them declare the same names: those of the tokens of the
selected collections, and those of the styles that are written as variables
(`Document.declaresName_cssItems`, `Document.declaresDollar_scssItems`, `Document.mem_propertyNames`).
-/

namespace DesignTokens

/-! ## Rules of modes -/

/-- A preferred item is one of the items. -/
lemma mem_of_preferDefault? {α : Type} {name : α → String} {items : List α} {a : α}
    (h : preferDefault? name items = some a) : a ∈ items := by
  unfold preferDefault? at h
  cases hfind : items.find? fun item => isDefaultName (name item) with
  | some b =>
    rw [hfind] at h
    cases h
    exact List.mem_of_find?_eq_some hfind
  | none =>
    rw [hfind] at h
    exact List.mem_of_head? h

/-- Of several items one is preferred. -/
lemma exists_preferDefault? {α : Type} (name : α → String) {items : List α} (h : items ≠ []) :
    ∃ a, preferDefault? name items = some a := by
  obtain ⟨first, rest, rfl⟩ := List.exists_cons_of_ne_nil h
  unfold preferDefault?
  cases (first :: rest).find? fun item => isDefaultName (name item) with
  | some b => exact ⟨b, rfl⟩
  | none => exact ⟨first, rfl⟩

/-- A value for several modes is there for one of them at least. -/
def RenderedValue.IsGiven : RenderedValue → Prop
  | single _ => True
  | perMode modes => modes ≠ []

/-- The rendered value of a token is given. -/
lemma Renderer.isGiven_valueOf {r : Renderer} {t : Token} {value : RenderedValue}
    (h : r.valueOf t = .ok value) : value.IsGiven := by
  unfold Renderer.valueOf at h
  split at h
  · obtain ⟨text, _, rfl⟩ := map_eq_ok.mp h
    exact trivial
  · obtain ⟨modes, _, rfl⟩ := map_eq_ok.mp h
    cases modes with
    | nil => exact trivial
    | cons first rest => exact List.cons_ne_nil first rest

section modes

variable {tokens : List RenderedToken} {t : RenderedToken}

/-- Every mode of a token has a rule. -/
lemma exists_mem_ruleModes (ht : t ∈ tokens) {mode : String} (hmode : mode ∈ t.value.modeNames) :
    ∃ isDefault, (mode, isDefault) ∈ ruleModes tokens := by
  have hmem : mode ∈ (tokens.flatMap (·.value.modeNames)).eraseDups :=
    List.mem_eraseDups.mpr (List.mem_flatMap.mpr ⟨t, ht, hmode⟩)
  unfold ruleModes
  split
  · rename_i hnone
    rw [hnone] at hmem
    exact (List.not_mem_nil hmem).elim
  · exact ⟨_, List.mem_map_of_mem hmem⟩

/-- Where there are tokens, a rule stands for the default mode. -/
lemma exists_default_mem_ruleModes (ht : t ∈ tokens) : ∃ mode, (mode, true) ∈ ruleModes tokens := by
  unfold ruleModes
  split
  · have hne : tokens.isEmpty = false := List.isEmpty_eq_false_iff.mpr (List.ne_nil_of_mem ht)
    rw [hne]
    exact ⟨"default", List.mem_singleton.mpr rfl⟩
  · rename_i hne
    obtain ⟨mode, hmode⟩ := exists_preferDefault? id hne
    refine ⟨mode, List.mem_map.mpr ⟨mode, mem_of_preferDefault? hmode, ?_⟩⟩
    rw [hmode, beq_self_eq_true]

/-- Every token with a given value is declared in the rule of some mode. -/
lemma exists_mem_modeBlocks (ht : t ∈ tokens) (hgiven : t.value.IsGiven) :
    ∃ b ∈ modeBlocks tokens, ∃ value, Declaration.custom t.name value ∈ b.declarations := by
  have hblock : ∀ mode isDefault value, (mode, isDefault) ∈ ruleModes tokens →
      t.declarationIn? mode isDefault = some (.custom t.name value) →
      ∃ b ∈ modeBlocks tokens, ∃ value, Declaration.custom t.name value ∈ b.declarations :=
    fun mode isDefault value hmode hdeclared => ⟨_, List.mem_map_of_mem hmode, value,
      List.mem_filterMap.mpr ⟨t, ht, hdeclared⟩⟩
  cases hvalue : t.value with
  | single text =>
    obtain ⟨mode, hmode⟩ := exists_default_mem_ruleModes ht
    refine hblock mode true text hmode ?_
    unfold RenderedToken.declarationIn?
    rw [hvalue]
    rfl
  | perMode modes =>
    rw [hvalue] at hgiven
    obtain ⟨⟨mode, text⟩, rest, rfl⟩ := List.exists_cons_of_ne_nil hgiven
    have hname : mode ∈ t.value.modeNames := by
      rw [hvalue]
      exact List.mem_cons_self
    obtain ⟨isDefault, hmode⟩ := exists_mem_ruleModes ht hname
    refine hblock mode isDefault text hmode ?_
    unfold RenderedToken.declarationIn?
    rw [hvalue]
    simp [OrderedMap.find?]

/-- The rules of modes declare tokens only. -/
lemma exists_of_mem_modeBlocks {b : ModeBlock} (hb : b ∈ modeBlocks tokens)
    {declared : Declaration} (h : declared ∈ b.declarations) :
    ∃ t ∈ tokens, ∃ value, declared = .custom t.name value := by
  obtain ⟨⟨mode, isDefault⟩, _, rfl⟩ := List.mem_map.mp hb
  obtain ⟨t, ht, hdeclared⟩ := List.mem_filterMap.mp h
  refine ⟨t, ht, ?_⟩
  unfold RenderedToken.declarationIn? at hdeclared
  split at hdeclared
  · rename_i text _
    split_ifs at hdeclared
    exact ⟨text, (Option.some.inj hdeclared).symm⟩
  · obtain ⟨text, _, heq⟩ := Option.map_eq_some_iff.mp hdeclared
    exact ⟨text, heq.symm⟩

end modes

/-! ## Rendered tokens -/

/-- A token of the selected collections of a document has a name. -/
def Document.NamesToken (d : Document) (s : Settings) (name : String) : Prop :=
  ∃ e ∈ d.selected s, ∃ x ∈ TokenTree.walk [e.1] e.2, s.cssName ("/".intercalate x.1) = name

/-- A style of a document that is written as a variable has a name. -/
def Document.NamesStyle (d : Document) (s : Settings) (name : String) : Prop :=
  s.styleOutput = .vars ∧
    ∃ x ∈ d.styleTokens s, s.cssName ("/".intercalate (stylePath x.1 x.2.1)) = name

namespace Renderer

variable {r : Renderer} {name : String}

/-- A rendered token has the name of its path and a given value. -/
lemma name_token {path : List String} {t : Token} {rendered : RenderedToken}
    (h : r.token path t = .ok rendered) :
    rendered.name = r.cssName path ∧ rendered.value.IsGiven := by
  obtain ⟨value, hvalue, h⟩ := bind_eq_ok.mp h
  cases h
  exact ⟨rfl, isGiven_valueOf hvalue⟩

/-- The names of the rendered tokens of a tree are those of its tokens. -/
lemma exists_name_tokens {collection : String} {tree : TokenTree} {tokens : List RenderedToken}
    (h : r.tokens collection tree = .ok tokens) :
    (∃ t ∈ tokens, t.name = name) ↔
      ∃ x ∈ TokenTree.walk [collection] tree, r.cssName x.1 = name := by
  unfold Renderer.tokens at h
  obtain ⟨rendered, hrendered, hsorted⟩ := bind_eq_ok.mp h
  simp only [NaturalOrder.mem_sortBy hsorted]
  refine exists_mapM_iff hrendered fun x t htoken => ?_
  rw [(name_token htoken).1]

/-- The rendered tokens of a tree have given values. -/
lemma isGiven_of_mem_tokens {collection : String} {tree : TokenTree} {tokens : List RenderedToken}
    (h : r.tokens collection tree = .ok tokens) {t : RenderedToken} (ht : t ∈ tokens) :
    t.value.IsGiven := by
  unfold Renderer.tokens at h
  obtain ⟨rendered, hrendered, hsorted⟩ := bind_eq_ok.mp h
  obtain ⟨x, _, htoken⟩ := exists_of_mem_mapM hrendered ((NaturalOrder.mem_sortBy hsorted).mp ht)
  exact (name_token htoken).2

/-- The names of the rendered tokens are those of the tokens of the selected collections. -/
lemma exists_name_collections {collections : List (String × List RenderedToken)}
    (h : r.collections = .ok collections) :
    (∃ e ∈ collections, ∃ t ∈ e.2, t.name = name) ↔ r.document.NamesToken r.settings name := by
  unfold Renderer.collections at h
  refine exists_mapM_iff h fun entry e hrendered => ?_
  obtain ⟨tokens, htokens, heq⟩ := bind_eq_ok.mp hrendered
  cases heq
  exact exists_name_tokens htokens

/-- The rendered tokens have given values. -/
lemma isGiven_of_mem_collections {collections : List (String × List RenderedToken)}
    (h : r.collections = .ok collections) {e : String × List RenderedToken} (he : e ∈ collections)
    {t : RenderedToken} (ht : t ∈ e.2) : t.value.IsGiven := by
  unfold Renderer.collections at h
  obtain ⟨⟨collection, tree⟩, _, hrendered⟩ := exists_of_mem_mapM h he
  obtain ⟨tokens, htokens, heq⟩ := bind_eq_ok.mp hrendered
  cases heq
  exact isGiven_of_mem_tokens htokens ht

/-- The names of the rendered styles are those of the style tokens. -/
lemma exists_name_styles {styles : List RenderedToken} (h : r.styles = .ok styles) :
    (∃ t ∈ styles, t.name = name) ↔
      ∃ x ∈ r.document.styleTokens r.settings, r.cssName (stylePath x.1 x.2.1) = name := by
  unfold Renderer.styles at h
  refine exists_mapM_iff h fun x t htoken => ?_
  rw [(name_token htoken).1]

end Renderer

/-! ## Stylesheets -/

/-- A sheet declares a custom property. -/
def DeclaresName (items : List CssItem) (name : String) : Prop :=
  ∃ value, Declares items name value

/-- Declarations of one custom property have one name. -/
lemma Declaration.custom_inj {name name' value value' : String}
    (h : Declaration.custom name value = .custom name' value') : name = name' :=
  (String.append_right_inj "--").mp (congrArg Declaration.property h)

namespace Document

variable {d : Document} {s : Settings} {name : String}

/-- The custom properties of a document are those of its tokens and of the given styles. -/
lemma declaresName_propertyItems {r : Renderer} {styles : List BodyItem} {items : List CssItem}
    (h : propertyItems r styles = .ok items) :
    DeclaresName items name ↔ r.document.NamesToken r.settings name ∨
      ∃ value, BodyItem.declaration (.custom name value) ∈ styles := by
  unfold propertyItems at h
  obtain ⟨collections, hcollections, h⟩ := bind_eq_ok.mp h
  rw [← Renderer.exists_name_collections hcollections]
  unfold DeclaresName Declares
  cases hmodes : r.settings.modeSelectors with
  | true =>
    rw [hmodes] at h
    cases h
    simp only [Layout.mem_byMode, exists_or]
    refine or_congr ?_ Iff.rfl
    constructor
    · rintro ⟨value, c, hc, b, hb, hdeclared⟩
      obtain ⟨e, he, rfl⟩ := List.mem_map.mp hc
      obtain ⟨t, ht, value', heq⟩ := exists_of_mem_modeBlocks hb hdeclared
      exact ⟨e, he, t, ht, (Declaration.custom_inj heq).symm⟩
    · rintro ⟨e, he, t, ht, rfl⟩
      obtain ⟨b, hb, value, hdeclared⟩ :=
        exists_mem_modeBlocks ht (Renderer.isGiven_of_mem_collections hcollections he ht)
      exact ⟨value, _, List.mem_map_of_mem he, b, hb, hdeclared⟩
  | false =>
    rw [hmodes] at h
    cases h
    simp only [Layout.mem_flat, exists_or]
    refine or_congr ?_ Iff.rfl
    constructor
    · rintro ⟨value, c, hc, hdeclared⟩
      obtain ⟨e, he, rfl⟩ := List.mem_map.mp hc
      obtain ⟨t, ht, heq⟩ := List.mem_map.mp hdeclared
      exact ⟨e, he, t, ht, Declaration.custom_inj heq⟩
    · rintro ⟨e, he, t, ht, rfl⟩
      exact ⟨t.value.flatText, _, List.mem_map_of_mem he, List.mem_map_of_mem ht⟩

end Document

/-! ### Utility classes -/

/-- A property whose name does not begin like that of a custom property. -/
def IsPlainProperty (p : Property) : Prop :=
  p.1.toList.head? ≠ some '-'

/-- The declaration of a plain property declares no custom property. -/
lemma IsPlainProperty.ne_custom {p : Property} (h : IsPlainProperty p) (name value : String) :
    Declaration.mk p.1 p.2 ≠ .custom name value := by
  intro heq
  have hproperty : p.1 = "--" ++ name := congrArg Declaration.property heq
  refine h ?_
  rw [hproperty, String.toList_append]
  rfl

/-- A rule of plain properties declares no custom property. -/
lemma custom_not_mem_ofDeclarations {selector : String} {properties : List Property}
    (h : ∀ p ∈ properties, IsPlainProperty p) (name value : String) :
    Declaration.custom name value ∉
      (CssItem.ofDeclarations selector (Renderer.declarationsOf properties)).declarations := by
  unfold CssItem.ofDeclarations
  rw [Layout.mem_declarations_rule]
  intro hmem
  obtain ⟨declared, hdeclared, heq⟩ := List.mem_map.mp hmem
  obtain ⟨p, hp, hsame⟩ := List.mem_map.mp hdeclared
  rw [BodyItem.declaration.inj heq] at hsame
  exact (h p hp).ne_custom name value hsame

/-- An optional property has its own name. -/
lemma fst_of_mem_propertyList {name : String} {value : Option String} {p : Property}
    (h : p ∈ propertyList name value) : p.1 = name := by
  cases value with
  | none => exact (List.not_mem_nil h).elim
  | some text =>
    rw [List.mem_singleton.mp h]

/-- An optional property is plain if its name is that of a plain one. -/
lemma isPlain_of_mem_propertyList {name : String} {value : Option String} {p : Property}
    (hname : name.toList.head? ≠ some '-') (h : p ∈ propertyList name value) :
    IsPlainProperty p := by
  unfold IsPlainProperty
  rwa [fst_of_mem_propertyList h]

namespace Renderer

variable {r : Renderer}

/-- The properties of a typography value are plain. -/
lemma isPlain_typographyProperties {t : Typography} {properties : List Property}
    (h : r.typographyProperties t = .ok properties) : ∀ p ∈ properties, IsPlainProperty p := by
  unfold typographyProperties at h
  obtain ⟨size, _, h⟩ := bind_eq_ok.mp h
  obtain ⟨weight, _, h⟩ := bind_eq_ok.mp h
  cases h
  intro p hp
  simp only [List.mem_append, List.mem_cons, List.not_mem_nil, or_false] at hp
  rcases hp with (((((rfl | rfl | rfl) | hp) | hp) | hp) | hp) | hp
  · show "font-family".toList.head? ≠ some '-'
    decide
  · show "font-size".toList.head? ≠ some '-'
    decide
  · show "font-weight".toList.head? ≠ some '-'
    decide
  all_goals exact isPlain_of_mem_propertyList (by decide) hp

/-- The properties of the classes of a style are plain. -/
lemma isPlain_classProperties {kind : StyleKind} {t : Token}
    {classes : List (String × List Property)} (h : r.classProperties kind t = .ok classes) :
    ∀ c ∈ classes, ∀ p ∈ c.2, IsPlainProperty p := by
  unfold classProperties at h
  split at h
  · cases h
    exact List.forall_mem_nil _
  · split at h
    · obtain ⟨properties, hproperties, h⟩ := bind_eq_ok.mp h
      cases h
      intro c hc
      rw [List.mem_singleton.mp hc]
      exact isPlain_typographyProperties hproperties
    · obtain ⟨text, _, h⟩ := bind_eq_ok.mp h
      have hclasses := Except.ok.inj h
      rw [← hclasses]
      unfold IsPlainProperty
      cases kind with
      | paint => simp
      | effect =>
        dsimp only
        split_ifs <;> simp
      | grid =>
        simp only [forall_eq, List.mem_cons, List.not_mem_nil, or_false]
        rintro p (rfl | rfl)
        · show "display".toList.head? ≠ some '-'
          decide
        · show "grid-template-columns".toList.head? ≠ some '-'
          decide
      | text => simp

/-- Utility classes declare no custom properties. -/
lemma not_declaresName_classItems {current : Option StyleKind}
    {styles : List (StyleKind × List String × Token)} {items : List CssItem}
    (h : r.classItems current styles = .ok items) (name : String) : ¬ DeclaresName items name := by
  induction styles generalizing current items with
  | nil =>
    cases h
    rintro ⟨value, hdeclared⟩
    exact List.not_mem_nil hdeclared
  | cons style rest ih =>
    obtain ⟨kind, path, t⟩ := style
    unfold classItems at h
    obtain ⟨classes, hclasses, h⟩ := bind_eq_ok.mp h
    obtain ⟨later, hlater, h⟩ := bind_eq_ok.mp h
    have hitems := Except.ok.inj h
    rintro ⟨value, hdeclared⟩
    unfold Declares at hdeclared
    rw [← hitems, List.flatMap_append, List.flatMap_append, List.flatMap_append, List.mem_append,
      List.mem_append, List.mem_append] at hdeclared
    rcases hdeclared with ((htitle | hrules) | hblank) | hrest
    · split_ifs at htitle <;> simp [CssItem.declarations] at htitle
    · obtain ⟨item, hitem, hdeclared⟩ := List.mem_flatMap.mp hrules
      obtain ⟨⟨start, properties⟩, hclass, rfl⟩ := List.mem_map.mp hitem
      exact custom_not_mem_ofDeclarations (isPlain_classProperties hclasses _ hclass) name value
        hdeclared
    · simp [CssItem.declarations] at hblank
    · exact ih hlater ⟨value, hrest⟩

end Renderer

/-- Declarations of one variable have one name. -/
lemma Declaration.dollar_inj {name name' value value' : String}
    (h : Declaration.dollar name value = .dollar name' value') : name = name' :=
  (String.append_right_inj "$").mp (congrArg Declaration.property h)

/-! ### Whole outputs -/

namespace Document

variable {d : Document} {s : Settings} {name : String}

/-- The stylesheet of a document declares the names of the tokens of the selected collections and of
the styles that are written as variables, in either layout. -/
theorem declaresName_cssItems {items : List CssItem} (h : d.cssItems s = .ok items) :
    DeclaresName items name ↔ d.NamesToken s name ∨ d.NamesStyle s name := by
  unfold cssItems at h
  dsimp only at h
  unfold NamesStyle
  cases houtput : s.styleOutput with
  | vars =>
    rw [houtput] at h
    obtain ⟨styles, hstyles, h⟩ := bind_eq_ok.mp h
    rw [declaresName_propertyItems h]
    refine or_congr Iff.rfl ?_
    rw [eq_self_iff_true, true_and]
    refine Iff.trans ?_ (Renderer.exists_name_styles hstyles)
    constructor
    · rintro ⟨value, hdeclared⟩
      obtain ⟨t, ht, heq⟩ := List.mem_map.mp hdeclared
      exact ⟨t, ht, Declaration.custom_inj (BodyItem.declaration.inj heq)⟩
    · rintro ⟨t, ht, rfl⟩
      exact ⟨t.value.flatText, List.mem_map.mpr ⟨t, ht, rfl⟩⟩
  | classes =>
    rw [houtput] at h
    obtain ⟨properties, hproperties, h⟩ := bind_eq_ok.mp h
    obtain ⟨classes, hclasses, h⟩ := bind_eq_ok.mp h
    have hitems := Except.ok.inj h
    have hnone : ∀ name, ¬ DeclaresName (if classes.isEmpty then [] else [.blank] ++ classes)
        name := by
      intro name
      split_ifs
      · rintro ⟨value, hdeclared⟩
        exact List.not_mem_nil hdeclared
      · rintro ⟨value, hdeclared⟩
        exact Renderer.not_declaresName_classItems hclasses name ⟨value, hdeclared⟩
    have hsplit : DeclaresName items name ↔ DeclaresName properties name := by
      rw [← hitems]
      constructor
      · rintro ⟨value, hdeclared⟩
        unfold Declares at hdeclared
        rw [List.flatMap_append, List.mem_append] at hdeclared
        exact hdeclared.elim (fun hmem => ⟨value, hmem⟩) fun hmem => absurd ⟨value, hmem⟩ (hnone name)
      · rintro ⟨value, hdeclared⟩
        exact ⟨value, hdeclared.append _⟩
    rw [hsplit, declaresName_propertyItems hproperties]
    simp

/-! ### SCSS sheets and lists of names -/

/-- An SCSS sheet declares a variable. -/
def DeclaresDollar (items : List ScssItem) (name : String) : Prop :=
  ∃ value, ScssItem.declaration (.dollar name value) ∈ items

/-- The items of rendered tokens declare the names of the tokens. -/
lemma declaresDollar_map_scssItem {tokens : List RenderedToken} :
    DeclaresDollar (tokens.map RenderedToken.scssItem) name ↔ ∃ t ∈ tokens, t.name = name := by
  constructor
  · rintro ⟨value, hdeclared⟩
    obtain ⟨t, ht, heq⟩ := List.mem_map.mp hdeclared
    exact ⟨t, ht, Declaration.dollar_inj (ScssItem.declaration.inj heq)⟩
  · rintro ⟨t, ht, rfl⟩
    exact ⟨ScssValue.ofCss t.value.flatText, List.mem_map.mpr ⟨t, ht, rfl⟩⟩

/-- The sections of an SCSS sheet declare what their items declare. -/
lemma declaresDollar_scssSections {sections : List (String × List ScssItem)} :
    DeclaresDollar (scssSections s sections) name ↔ ∃ e ∈ sections, DeclaresDollar e.2 name := by
  unfold scssSections
  constructor
  · rintro ⟨value, hdeclared⟩
    obtain hblank | ⟨l, hl, hdeclared⟩ := mem_of_mem_intercalate hdeclared
    · simp at hblank
    · obtain ⟨⟨title, items⟩, he, rfl⟩ := List.mem_map.mp hl
      refine ⟨_, he, value, (List.mem_append.mp hdeclared).resolve_left ?_⟩
      split_ifs <;> simp
  · rintro ⟨e, he, value, hdeclared⟩
    exact ⟨value, mem_intercalate (List.mem_map_of_mem he) (List.mem_append_right _ hdeclared)⟩

/-- What is made for a style in the layout with mixins is a mixin. -/
lemma exists_mixin_of_mixinItem {r : Renderer} {kind : StyleKind} {path : List String} {t : Token}
    {item : ScssItem} (h : r.mixinItem kind path t = .ok item) :
    ∃ name parameters body, item = .mixin name parameters body := by
  unfold Renderer.mixinItem at h
  dsimp only at h
  split at h
  · split at h
    · obtain ⟨text, _, h⟩ := bind_eq_ok.mp h
      cases h
      exact ⟨_, _, _, rfl⟩
    · cases h
      exact ⟨_, _, _, rfl⟩
  · obtain ⟨classes, _, h⟩ := bind_eq_ok.mp h
    cases h
    exact ⟨_, _, _, rfl⟩

/-- Mixins declare no variables. -/
lemma not_declaresDollar_mixinItems {r : Renderer} {items : List ScssItem}
    (h : r.mixinItems = .ok items) : ¬ DeclaresDollar items name := by
  unfold Renderer.mixinItems at h
  obtain ⟨mixins, hmixins, h⟩ := bind_eq_ok.mp h
  cases h
  rintro ⟨value, hdeclared⟩
  obtain ⟨item, hitem, hdeclared⟩ := List.mem_flatMap.mp hdeclared
  obtain ⟨⟨kind, path, t⟩, _, hmade⟩ := exists_of_mem_mapM hmixins hitem
  obtain ⟨_, _, _, rfl⟩ := exists_mixin_of_mixinItem hmade
  simp at hdeclared

/-- The styles of an SCSS sheet declare the names of the styles that are written as variables. -/
lemma declaresDollar_scssStyleItems {items : List ScssItem} {r : Renderer}
    (h : scssStyleItems r = .ok items) :
    DeclaresDollar items name ↔ r.document.NamesStyle r.settings name := by
  have hcomment : ∀ text rest, DeclaresDollar (.comment text :: rest) name ↔
      DeclaresDollar rest name := by
    intro text rest
    unfold DeclaresDollar
    simp
  unfold scssStyleItems at h
  unfold NamesStyle
  cases houtput : r.settings.styleOutput with
  | vars =>
    rw [houtput] at h
    obtain ⟨styles, hstyles, h⟩ := bind_eq_ok.mp h
    cases h
    rw [hcomment, declaresDollar_map_scssItem, Renderer.exists_name_styles hstyles]
    simp only [true_and]
    rfl
  | classes =>
    rw [houtput] at h
    obtain ⟨mixins, hmixins, h⟩ := bind_eq_ok.mp h
    cases h
    rw [hcomment]
    simp [not_declaresDollar_mixinItems hmixins]

/-- The sections of rendered collections declare the names of their tokens. -/
lemma declaresDollar_sections {collections : List (String × List RenderedToken)} :
    DeclaresDollar (scssSections s (collections.map fun (name, tokens) =>
        (name, tokens.map RenderedToken.scssItem))) name ↔
      ∃ e ∈ collections, ∃ t ∈ e.2, t.name = name := by
  rw [declaresDollar_scssSections]
  constructor
  · rintro ⟨_, hpart, hdeclared⟩
    obtain ⟨e, he, rfl⟩ := List.mem_map.mp hpart
    exact ⟨e, he, declaresDollar_map_scssItem.mp hdeclared⟩
  · rintro ⟨e, he, ht⟩
    exact ⟨_, List.mem_map_of_mem he, declaresDollar_map_scssItem.mpr ht⟩

/-- The SCSS sheet of a document declares the names that its stylesheet declares. -/
theorem declaresDollar_scssItems {items : List ScssItem} (h : d.scssItems s = .ok items) :
    DeclaresDollar items name ↔ d.NamesToken s name ∨ d.NamesStyle s name := by
  unfold scssItems at h
  dsimp only at h
  obtain ⟨collections, hcollections, h⟩ := bind_eq_ok.mp h
  have hvars : DeclaresDollar (scssSections s _) name ↔ d.NamesToken s name :=
    declaresDollar_sections.trans (Renderer.exists_name_collections hcollections)
  cases hstyles : (d.styleTokens s).isEmpty with
  | true =>
    rw [hstyles] at h
    cases h
    rw [hvars]
    refine (or_iff_left ?_).symm
    rintro ⟨_, x, hx, _⟩
    rw [List.isEmpty_iff.mp hstyles] at hx
    exact List.not_mem_nil hx
  | false =>
    rw [hstyles] at h
    obtain ⟨styles, hstyleItems, h⟩ := bind_eq_ok.mp h
    cases h
    rw [← hvars, ← declaresDollar_scssStyleItems hstyleItems]
    unfold DeclaresDollar
    simp [exists_or]

/-- The names of a collection are those of its tokens. -/
lemma mem_collectionNames {collection : String} {tree : TokenTree} {names : List String}
    (h : collectionNames s collection tree = .ok names) :
    name ∈ names ↔
      ∃ x ∈ TokenTree.walk [collection] tree, s.cssName ("/".intercalate x.1) = name :=
  (NaturalOrder.mem_sortBy h).trans List.mem_map

/-- The list of names of a document holds the names that its stylesheet declares. -/
theorem mem_propertyNames {names : List String} (h : d.propertyNames s = .ok names) :
    "--" ++ name ∈ names ↔ d.NamesToken s name ∨ d.NamesStyle s name := by
  unfold propertyNames at h
  obtain ⟨named, hnamed, h⟩ := bind_eq_ok.mp h
  cases h
  rw [List.mem_map_of_injective fun _ _ => (String.append_right_inj "--").mp, List.mem_append]
  refine or_congr ?_ ?_
  · rw [List.mem_flatten]
    exact exists_mapM_iff hnamed fun _ _ hnames => mem_collectionNames hnames
  · unfold NamesStyle
    cases s.styleOutput with
    | vars => simp
    | classes => simp

/-- What all sheets and lists of names of a document declare. -/
structure DeclaresExactly (d : Document) (s : Settings) (declared : String → Prop) : Prop where
  css : ∀ items, d.cssItems s = .ok items → ∀ name, DeclaresName items name ↔ declared name
  scss : ∀ items, d.scssItems s = .ok items → ∀ name, DeclaresDollar items name ↔ declared name
  typescript : ∀ names, d.propertyNames s = .ok names → ∀ name, "--" ++ name ∈ names ↔ declared name

/-- All outputs of a document declare the same names. -/
lemma declaresExactly (d : Document) (s : Settings) :
    d.DeclaresExactly s fun name => d.NamesToken s name ∨ d.NamesStyle s name where
  css _ h _ := declaresName_cssItems h
  scss _ h _ := declaresDollar_scssItems h
  typescript _ h _ := mem_propertyNames h

end Document

end DesignTokens
