import DesignTokens.Proofs.Export.Rules

/-!
# Utility classes and the list of their names

The classes of a stylesheet are made from the values of the style tokens, kind by kind; the file of
names lists them by their paths alone.  Both walks name the same classes in the same order, as long as
every style token has a value (`Renderer.selectors_classItems`).  The file, however, is written for
the sake of the custom properties: where a document declares none, it is a comment and lists no
classes, however many the stylesheet has (`Document.classNames_of_toCss`).
-/

namespace DesignTokens

/-- A token with a value for at least one mode has a value where one is needed. -/
lemma Token.exists_flatValue? {t : Token} (h : t.value ≠ .perMode []) :
    ∃ value, t.flatValue? = some value := by
  unfold Token.flatValue?
  cases hvalue : t.value with
  | flat value => exact ⟨value, rfl⟩
  | perMode modes =>
    have hmodes : modes ≠ [] := by
      intro hnil
      rw [hvalue, hnil] at h
      exact h rfl
    obtain ⟨e, he⟩ := exists_preferDefault? Prod.fst hmodes
    refine ⟨e.2, ?_⟩
    dsimp only
    rw [he]
    rfl

/-! ## Names of classes -/

namespace Renderer

variable {r : Renderer}

/-- A style token with a value has the classes that are listed for its kind. -/
lemma names_of_classProperties {kind : StyleKind} {t : Token}
    {classes : List (String × List Property)} (h : r.classProperties kind t = .ok classes)
    {value : FlatValue} (hvalue : t.flatValue? = some value) (name : String) :
    (classes.map fun c => c.1 ++ name) = classNamesOf kind name := by
  unfold classProperties at h
  rw [hvalue] at h
  dsimp only at h
  split at h
  · obtain ⟨properties, _, h⟩ := bind_eq_ok.mp h
    cases h
    simp [classNamesOf]
  · obtain ⟨text, _, h⟩ := bind_eq_ok.mp h
    have hclasses := Except.ok.inj h
    rw [← hclasses]
    cases kind with
    | paint => simp [classNamesOf]
    | text => simp [classNamesOf]
    | effect => simp [classNamesOf]
    | grid => simp [classNamesOf]

/-- The selectors of the classes of style tokens with values are the names that are listed for the
tokens, token by token. -/
theorem selectors_classItems {current : Option StyleKind}
    {styles : List (StyleKind × List String × Token)} {items : List CssItem}
    (h : r.classItems current styles = .ok items)
    (hvalues : ∀ x ∈ styles, x.2.2.value ≠ .perMode []) :
    (rulesOf items).map CssRule.selector =
      (styles.flatMap fun x => classNamesOf x.1 (r.className x.2.1)).map ("." ++ ·) := by
  induction styles generalizing current items with
  | nil =>
    cases h
    rfl
  | cons style rest ih =>
    obtain ⟨kind, path, t⟩ := style
    obtain ⟨classes, hclasses, h⟩ := bind_eq_ok.mp h
    obtain ⟨later, hlater, h⟩ := bind_eq_ok.mp h
    cases h
    obtain ⟨hvalue, hrest⟩ := List.forall_mem_cons.mp hvalues
    obtain ⟨value, hflat⟩ := Token.exists_flatValue? hvalue
    have hnames := names_of_classProperties hclasses hflat (r.className path)
    have htitle : rulesOf (if current = some kind then [] else [.comment (classesTitle kind)]) =
        [] := by
      split_ifs <;> rfl
    have hselectors : (rulesOf (classes.map fun c =>
        CssItem.ofDeclarations ("." ++ c.1 ++ r.className path)
          (declarationsOf c.2))).map CssRule.selector =
        (classNamesOf kind (r.className path)).map ("." ++ ·) := by
      rw [← hnames, List.map_map, rulesOf, List.filterMap_map, List.map_filterMap]
      simp [Function.comp_def, CssItem.rule?, CssItem.ofDeclarations, String.append_assoc]
    rw [List.flatMap_cons, List.map_append, ← hselectors, ← ih hlater hrest, rulesOf_append,
      rulesOf_append, rulesOf_append, htitle]
    simp [rulesOf, CssItem.rule?]

end Renderer

/-! ## The file of names -/

namespace Document

variable {d : Document} {s : Settings}

/-- The selectors of the utility classes are the listed names of classes. -/
lemma selectors_utilityItems {classes : List CssItem} (h : d.utilityItems s = .ok classes)
    (hvalues : ∀ x ∈ d.styleTokens s, x.2.2.value ≠ .perMode []) :
    (rulesOf classes).map CssRule.selector = (d.classNames s).map ("." ++ ·) := by
  unfold utilityItems at h
  split at h
  · rename_i houtput
    cases h
    unfold classNames
    rw [houtput]
    rfl
  · rename_i houtput
    obtain ⟨made, hmade, h⟩ := bind_eq_ok.mp h
    have hclasses := Except.ok.inj h
    have hselectors := Renderer.selectors_classItems hmade hvalues
    unfold classNames
    rw [← hclasses, houtput]
    refine Eq.trans ?_ hselectors
    cases made with
    | nil => rfl
    | cons item rest => rfl

/-- A sheet of a document, in either layout, declares a custom property exactly if the property is
listed. -/
lemma mem_customProperties_iff {items : List CssItem} (h : d.cssItems s = .ok items)
    {names : List String} (hnames : d.propertyNames s = .ok names) {property : String} :
    property ∈ customProperties items ↔ property ∈ names := by
  obtain ⟨flat, hflat⟩ := cssItems_laidOut h false
  obtain ⟨listed, hlisted, hproperties⟩ := customProperties_of_flat hflat rfl
  have hsame : listed = names := Except.ok.inj (hlisted.symm.trans hnames)
  rw [← hsame, ← hproperties]
  simp only [mem_customProperties, declaresName_cssItems h, declaresName_cssItems hflat]
  rfl

/-- The utility classes of a document whose style tokens have values come after its custom
properties.  Their selectors are the members of the union of classes in the file of names, in order,
exactly where the sheet has a custom property or no class at all: a document that declares no custom
property has a comment for its file of names, without any union. -/
theorem classNames_of_toCss {text : String} (h : d.toCss s = .ok text)
    (houtput : s.styleOutput = .classes)
    (hvalues : ∀ x ∈ d.styleTokens s, x.2.2.value ≠ .perMode []) :
    ∃ properties classes names file,
      propertyItems { document := d, settings := s } [] = .ok properties ∧
      d.cssItems s = .ok (properties ++ classes) ∧
      text = cssText (d.header s cssTitle) (properties ++ classes) ∧
      (rulesOf classes).map CssRule.selector = names.map ("." ++ ·) ∧
      d.toTypeScript s = .ok file ∧
      (customProperties properties ≠ [] → ∃ listed, file = fileText .block (d.header s namesTitle)
        (unionLines "CSSVariableName" listed ++ [""] ++ propertiesAugmentation ++
          if names.isEmpty then [] else [""] ++ unionLines "StyleClassName" names)) ∧
      (customProperties properties = [] →
        file = noNamesText ∧ Text.occursIn "StyleClassName".toList file.toList = false) := by
  obtain ⟨items, hitems, htext⟩ := bind_eq_ok.mp h
  obtain ⟨styles, properties, classes, hstyles, hproperties, hclasses, rfl⟩ :=
    cssItems_eq_ok_iff.mp hitems
  have hnone : styles = [] := by
    unfold styleDeclarations at hstyles
    rw [houtput] at hstyles
    exact (Except.ok.inj hstyles).symm
  rw [hnone] at hproperties
  obtain ⟨flat, hflat⟩ := cssItems_laidOut hitems false
  obtain ⟨listed, hlisted, _⟩ := customProperties_of_flat hflat rfl
  have hlisted : d.propertyNames s = .ok listed := hlisted
  have hmem : ∀ property, property ∈ customProperties properties ↔ property ∈ listed := by
    intro property
    rw [← mem_customProperties_iff hitems hlisted, customProperties_append,
      customProperties_utilityItems hclasses, List.append_nil]
  have hfile : d.toTypeScript s =
      .ok (namesText (d.header s namesTitle) listed (d.classNames s)) := bind_of_ok hlisted _
  refine ⟨properties, classes, d.classNames s, _, hproperties, hitems, (Except.ok.inj htext).symm,
    selectors_utilityItems hclasses hvalues, hfile, fun hne => ⟨listed, ?_⟩, fun hnil => ?_⟩
  · refine if_neg fun hempty => hne (List.eq_nil_iff_forall_not_mem.mpr fun property hproperty => ?_)
    rw [hmem, List.isEmpty_iff.mp hempty] at hproperty
    exact List.not_mem_nil hproperty
  · have hempty : listed = [] := List.eq_nil_iff_forall_not_mem.mpr fun property hproperty => by
      rw [← hmem, hnil] at hproperty
      exact List.not_mem_nil hproperty
    have hcomment : namesText (d.header s namesTitle) listed (d.classNames s) = noNamesText :=
      if_pos (List.isEmpty_iff.mpr hempty)
    rw [hcomment]
    exact ⟨rfl, by decide⟩

end Document

/-! ### A document of styles -/

/-- A document that has a paint style and no collection. -/
def paintDocument : Document :=
  { styles := some { paint := some [("brand",
      .token { type := .color, value := .flat (.literal (.text "transparent")) })] } }

/-- Settings that ask for utility classes. -/
def classSettings : Settings := { includeStyles := true, styleOutput := .classes }

/-- The classes of the paint style. -/
def paintClasses : List CssItem :=
  [.blank, .comment "Paint Style Classes",
    .ofDeclarations ".brand" [⟨"color", "transparent"⟩],
    .ofDeclarations ".bg-brand" [⟨"background-color", "transparent"⟩],
    .ofDeclarations ".border-brand" [⟨"border-color", "transparent"⟩], .blank]

/-- The sheet of the document has the classes after an empty rule. -/
lemma cssItems_paintDocument :
    paintDocument.cssItems classSettings =
      .ok ([Layout.flat classSettings [] []] ++ paintClasses) := by
  have hclasses : Renderer.classItems { document := paintDocument, settings := classSettings } none
      (paintDocument.styleTokens classSettings) = .ok paintClasses.tail := rfl
  rw [Document.cssItems_classes rfl]
  exact (bind_of_ok rfl _).trans (bind_of_ok hclasses _)

/-- The sheet has three classes and the file of names lists none. -/
theorem Document.classNames_of_toCss_paint :
    paintDocument.toCss classSettings = .ok (cssText (paintDocument.header classSettings cssTitle)
        ([Layout.flat classSettings [] []] ++ paintClasses)) ∧
      classSettings.styleOutput = .classes ∧
      (∀ x ∈ paintDocument.styleTokens classSettings, x.2.2.value ≠ .perMode []) ∧
      (rulesOf paintClasses).map CssRule.selector = [".brand", ".bg-brand", ".border-brand"] ∧
      paintDocument.toTypeScript classSettings = .ok noNamesText ∧
      Text.occursIn "StyleClassName".toList noNamesText.toList = false := by
  have hcss : paintDocument.toCss classSettings =
      .ok (cssText (paintDocument.header classSettings cssTitle)
        ([Layout.flat classSettings [] []] ++ paintClasses)) :=
    bind_of_ok cssItems_paintDocument _
  have hvalues : ∀ x ∈ paintDocument.styleTokens classSettings, x.2.2.value ≠ .perMode [] := by
    intro x hx
    rw [List.mem_singleton.mp hx]
    exact nofun
  obtain ⟨properties, _, _, file, hproperties, _, _, _, hfile, _, hnone⟩ :=
    Document.classNames_of_toCss hcss rfl hvalues
  have hempty : properties = [Layout.flat classSettings [] []] := (Except.ok.inj hproperties).symm
  rw [hempty] at hnone
  obtain ⟨hcomment, hunion⟩ := hnone rfl
  rw [hcomment] at hfile hunion
  exact ⟨hcss, rfl, hvalues, rfl, hfile, hunion⟩

end DesignTokens
