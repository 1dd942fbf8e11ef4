import DesignTokens.Proofs.Export.PropertyNames
import DesignTokens.Proofs.Token.PathLookup

/-!
# The list of names of a direct export

The file of names of a direct export has every variable of the selected collections, by its name
alone.  The stylesheet leaves out a variable where it has no value, so that one without a value for
any mode of the layout is listed and not declared.  The styles are the same in both outputs, part by
part.  So both have the same custom properties exactly if each variable without a value shares its
name with a variable that has one, or with a style (`DirectExport.names_of_exports`).
-/

namespace DesignTokens

/-! ## Styles as custom properties -/

/-- The name of a style with the suffixes of its parts. -/
def StyleEntry.suffixes (e : StyleEntry) : String × List String :=
  (e.name, e.parts.map Prod.fst)

namespace StyleScope

variable {s : StyleScope}

/-- The custom properties of the parts of a style. -/
def propertiesOf (s : StyleScope) (parts : String × List String) : List String :=
  parts.2.map fun suffix => "--" ++ (s.nameOf parts.1 ++ suffix)

/-- The parts of styles do not depend on the names of variables. -/
lemma suffixes_entries {kind : StyleKind} {entries entries' : List StyleEntry}
    (h : s.entries kind = .ok entries)
    (h' : ({ s with names := fun _ => none } : StyleScope).entries kind = .ok entries') :
    entries.map StyleEntry.suffixes = entries'.map StyleEntry.suffixes := by
  cases kind with
  | paint =>
    refine map_eq_of_mapM h h' fun style e e' he he' => ?_
    obtain ⟨text, _, he⟩ := bind_eq_ok.mp he
    obtain ⟨text', _, he'⟩ := bind_eq_ok.mp he'
    cases he
    cases he'
    rfl
  | text => rw [Except.ok.inj (h.symm.trans h')]
  | effect =>
    refine map_eq_of_mapM h h' fun style e e' he he' => ?_
    obtain ⟨text, _, he⟩ := bind_eq_ok.mp he
    obtain ⟨text', _, he'⟩ := bind_eq_ok.mp he'
    cases he
    cases he'
    rfl
  | grid => rw [Except.ok.inj (h.symm.trans h')]

/-- The listed custom properties of a style are those of its parts. -/
lemma entryDeclarations_names (e : StyleEntry) :
    s.entryDeclarations (fun name _ => "--" ++ name) e = s.propertiesOf e.suffixes := by
  unfold entryDeclarations propertiesOf StyleEntry.suffixes
  rw [List.map_map]
  rfl

/-- The declared custom properties of a style are those of its parts. -/
lemma entryDeclarations_items (e : StyleEntry) :
    ((s.entryDeclarations (fun name value => BodyItem.declaration (.custom name value)) e).filterMap
      BodyItem.declaration?).map Declaration.property = s.propertiesOf e.suffixes := by
  unfold entryDeclarations propertiesOf StyleEntry.suffixes
  rw [List.map_map, List.filterMap_map, List.map_filterMap]
  exact congrFun List.filterMap_eq_map _

/-- The styles of a kind declare the custom properties that are listed for them, in order. -/
lemma property_entries {kind : StyleKind} {entries entries' : List StyleEntry}
    (h : s.entries kind = .ok entries)
    (h' : ({ s with names := fun _ => none } : StyleScope).entries kind = .ok entries') :
    ((entries.flatMap (s.entryDeclarations fun name value =>
      BodyItem.declaration (.custom name value))).filterMap BodyItem.declaration?).map
        Declaration.property = entries'.flatMap (s.entryDeclarations fun name _ => "--" ++ name) := by
  rw [List.filterMap_flatMap, List.map_flatMap, funext entryDeclarations_items,
    funext entryDeclarations_names]
  calc entries.flatMap (fun e => s.propertiesOf e.suffixes)
    _ = (entries.map StyleEntry.suffixes).flatMap s.propertiesOf := (List.flatMap_map _ _ _).symm
    _ = (entries'.map StyleEntry.suffixes).flatMap s.propertiesOf := by rw [suffixes_entries h h']
    _ = entries'.flatMap fun e => s.propertiesOf e.suffixes := List.flatMap_map _ _ _

/-- The styles of a library declare the custom properties that are listed for them, in order. -/
theorem property_propertyItems {items : List BodyItem} {names : List String}
    (h : s.propertyItems = .ok items) (hnames : s.propertyNames = .ok names) :
    (items.filterMap BodyItem.declaration?).map Declaration.property = names := by
  unfold propertyItems at h
  unfold propertyNames at hnames
  obtain ⟨named, hnamed, heq⟩ := bind_eq_ok.mp hnames
  cases heq
  split_ifs at h with hempty
  · cases h
    rw [List.isEmpty_iff.mp hempty] at hnamed
    cases hnamed
    rfl
  · obtain ⟨shown, hshown, h⟩ := bind_eq_ok.mp h
    cases h
    obtain ⟨lists, hlists, heq⟩ := bind_eq_ok.mp hshown
    cases heq
    -- kind by kind, the title is no declaration
    have hsame : (lists.map fun items =>
        (items.filterMap BodyItem.declaration?).map Declaration.property) = named.map id := by
      refine map_eq_of_mapM hlists hnamed fun kind items names hitems hnames => ?_
      obtain ⟨entries, hentries, hitems⟩ := bind_eq_ok.mp hitems
      obtain ⟨entries', hentries', hnames⟩ := bind_eq_ok.mp hnames
      cases hitems
      cases hnames
      exact property_entries hentries hentries'
    rw [List.map_id] at hsame
    show (lists.flatten.filterMap BodyItem.declaration?).map Declaration.property = _
    rw [List.filterMap_flatten, List.map_flatten, List.map_map, ← hsame]
    rfl

/-- The styles declare a custom property exactly if it is listed for them. -/
lemma declares_iff_mem_propertyNames {items : List BodyItem} {names : List String}
    (h : s.propertyItems = .ok items) (hnames : s.propertyNames = .ok names) {name : String} :
    (∃ value, BodyItem.declaration (.custom name value) ∈ items) ↔ "--" ++ name ∈ names := by
  rw [← property_propertyItems h hnames]
  constructor
  · rintro ⟨value, hvalue⟩
    exact List.mem_map.mpr ⟨_, List.mem_filterMap.mpr ⟨_, hvalue, rfl⟩, rfl⟩
  · intro hmem
    obtain ⟨declared, hdeclared, hproperty⟩ := List.mem_map.mp hmem
    obtain ⟨item, hitem, heq⟩ := List.mem_filterMap.mp hdeclared
    have hcustom : declared = .custom name declared.value := by
      unfold Declaration.custom
      rw [← hproperty]
    cases item with
    | declaration d =>
      cases heq
      rw [hcustom] at hitem
      exact ⟨_, hitem⟩
    | blank => cases heq
    | comment text => cases heq

/-- Only custom properties are listed for styles. -/
lemma exists_of_mem_propertyNames {names : List String} (h : s.propertyNames = .ok names)
    {property : String} (hproperty : property ∈ names) : ∃ name, "--" ++ name = property := by
  unfold propertyNames at h
  obtain ⟨named, hnamed, heq⟩ := bind_eq_ok.mp h
  cases heq
  obtain ⟨listed, hlisted, hproperty⟩ := List.mem_flatten.mp hproperty
  obtain ⟨kind, _, hkind⟩ := exists_of_mem_mapM hnamed hlisted
  obtain ⟨entries, _, heq⟩ := bind_eq_ok.mp hkind
  cases heq
  obtain ⟨e, _, he⟩ := List.mem_flatMap.mp hproperty
  obtain ⟨part, _, heq⟩ := List.mem_map.mp he
  exact ⟨_, heq⟩

/-! ### Utility classes -/

/-- The properties of a text style are plain. -/
lemma isPlain_textProperties {style : TextStyle} {properties : List Property}
    (h : s.textProperties style = .ok properties) : ∀ p ∈ properties, IsPlainProperty p := by
  obtain ⟨formatting, _, h⟩ := bind_eq_ok.mp h
  unfold TextStyle.properties at h
  obtain ⟨size, _, h⟩ := bind_eq_ok.mp h
  obtain ⟨lineHeight, _, h⟩ := bind_eq_ok.mp h
  obtain ⟨letterSpacing, _, h⟩ := bind_eq_ok.mp h
  cases h
  intro p hp
  simp only [List.mem_append, List.mem_cons, List.not_mem_nil, or_false] at hp
  rcases hp with (((((rfl | rfl | rfl) | hp) | hp) | rfl) | hp) | hp
  · show "font-family".toList.head? ≠ some '-'
    decide
  · show "font-size".toList.head? ≠ some '-'
    decide
  · show "font-weight".toList.head? ≠ some '-'
    decide
  · exact isPlain_of_mem_propertyList (by decide) hp
  · exact isPlain_of_mem_propertyList (by decide) hp
  · show "letter-spacing".toList.head? ≠ some '-'
    decide
  · exact isPlain_of_mem_propertyList (by decide) hp
  · exact isPlain_of_mem_propertyList (by decide) hp

/-- The properties of the class of an effect style are plain. -/
lemma isPlain_effectProperties {style : EffectStyle} {properties : List Property}
    (h : s.effectProperties style = .ok properties) : ∀ p ∈ properties, IsPlainProperty p := by
  obtain ⟨text, _, h⟩ := bind_eq_ok.mp h
  cases h
  intro p hp
  simp only [List.mem_append] at hp
  rcases hp with (hp | hp) | hp
  · exact isPlain_of_mem_propertyList (by decide) hp
  · exact isPlain_of_mem_propertyList (by decide) hp
  · exact isPlain_of_mem_propertyList (by decide) hp

/-- The classes of a style set plain properties. -/
lemma exists_classRule_of_classRules {kind : StyleKind} {rules : List (List CssItem)}
    (h : s.classRules kind = .ok rules) :
    ∀ classes ∈ rules, ∀ item ∈ classes, ∃ start name properties,
      item = s.classRule start name properties ∧ ∀ p ∈ properties, IsPlainProperty p := by
  intro classes hclasses item hitem
  cases kind with
  | paint =>
    obtain ⟨style, _, hstyle⟩ := exists_of_mem_mapM h hclasses
    obtain ⟨text, _, heq⟩ := bind_eq_ok.mp hstyle
    cases heq
    simp only [List.mem_cons, List.not_mem_nil, or_false] at hitem
    unfold IsPlainProperty
    rcases hitem with rfl | rfl | rfl
    · exact ⟨_, _, _, rfl, by simp⟩
    · exact ⟨_, _, _, rfl, by simp⟩
    · exact ⟨_, _, _, rfl, by simp⟩
  | text =>
    obtain ⟨style, _, hstyle⟩ := exists_of_mem_mapM h hclasses
    obtain ⟨properties, hproperties, heq⟩ := bind_eq_ok.mp hstyle
    cases heq
    exact ⟨_, _, _, List.mem_singleton.mp hitem, isPlain_textProperties hproperties⟩
  | effect =>
    obtain ⟨style, _, hstyle⟩ := exists_of_mem_mapM h hclasses
    obtain ⟨properties, hproperties, heq⟩ := bind_eq_ok.mp hstyle
    cases heq
    exact ⟨_, _, _, List.mem_singleton.mp hitem, isPlain_effectProperties hproperties⟩
  | grid =>
    cases h
    obtain ⟨style, _, rfl⟩ := List.mem_map.mp hclasses
    refine ⟨_, _, _, List.mem_singleton.mp hitem, ?_⟩
    unfold gridProperties IsPlainProperty
    simp

/-- Utility classes of a library declare no custom properties. -/
lemma not_declaresName_classItems {items : List CssItem} (h : s.classItems = .ok items)
    (name : String) : ¬ DeclaresName items name := by
  unfold classItems at h
  obtain ⟨lists, hlists, heq⟩ := bind_eq_ok.mp h
  cases heq
  rintro ⟨value, hdeclared⟩
  obtain ⟨item, hitem, hdeclared⟩ := List.mem_flatMap.mp hdeclared
  obtain ⟨shown, hshown, hitem⟩ := List.mem_flatten.mp hitem
  obtain ⟨kind, _, hkind⟩ := exists_of_mem_mapM hlists hshown
  obtain ⟨rules, hrules, heq⟩ := bind_eq_ok.mp hkind
  cases heq
  rcases List.mem_cons.mp hitem with rfl | hitem
  · exact List.not_mem_nil hdeclared
  · obtain ⟨classes, hclasses, hitem⟩ := List.mem_flatMap.mp hitem
    rcases List.mem_append.mp hitem with hitem | hblank
    · obtain ⟨start, style, properties, rfl, hplain⟩ :=
        exists_classRule_of_classRules hrules classes hclasses item hitem
      exact custom_not_mem_ofDeclarations hplain name value hdeclared
    · rw [List.mem_singleton.mp hblank] at hdeclared
      exact List.not_mem_nil hdeclared

end StyleScope

/-! ## Variables -/

/-- A variable that has a text has a value of its own for the mode. -/
lemma Scope.isSome_variableText? {s : Scope} {modeId : String} {f : Except Fault Formatting}
    {v : Variable} {text? : Option String} (h : s.variableText? modeId f v = .ok text?) :
    text?.isSome = (OrderedMap.find? modeId v.values).isSome := by
  unfold variableText? at h
  cases hvalue : OrderedMap.find? modeId v.values with
  | none =>
    rw [hvalue] at h
    cases h
    rfl
  | some value =>
    rw [hvalue] at h
    obtain ⟨formatting, _, h⟩ := bind_eq_ok.mp h
    obtain ⟨text, _, h⟩ := bind_eq_ok.mp h
    cases h
    rfl

namespace DirectExport

variable {e : DirectExport} {c : Collection} {v : Variable} {name property : String}

/-- A variable of a selected collection is exported. -/
structure Exports (e : DirectExport) (c : Collection) (v : Variable) : Prop where
  selected : c ∈ e.selected
  known : v ∈ e.library.vars
  member : v.collectionId = c.id

/-- The modes of a collection that the layout shows. -/
def shownModeIds (e : DirectExport) (c : Collection) : List String :=
  if e.settings.modeSelectors then c.modes.map (·.id) else [c.flatModeId]

/-- A variable has a value for a mode of a collection that the layout shows. -/
def HasShownValue (e : DirectExport) (c : Collection) (v : Variable) : Prop :=
  ∃ modeId ∈ e.shownModeIds c, (OrderedMap.find? modeId v.values).isSome = true

/-- A member of a collection with a value for a mode has a name. -/
def NamesValue (e : DirectExport) (c : Collection) (name modeId : String) : Prop :=
  ∃ v, (v ∈ e.library.vars ∧ v.collectionId = c.id) ∧ (e.scope .css).cssName v = name ∧
    (OrderedMap.find? modeId v.values).isSome = true

/-- The members of a collection are the variables that belong to it. -/
lemma mem_members {members : List Variable} (h : e.members c = .ok members) :
    v ∈ members ↔ v ∈ e.library.vars ∧ v.collectionId = c.id :=
  (NaturalOrder.mem_sortBy h).trans (List.mem_filter.trans (and_congr_right' beq_iff_eq))

/-- The declarations of a collection in a mode are those of its members with a value. -/
lemma exists_custom_mem_declarations {modeId : String} {declared : List Declaration}
    (h : e.declarations c modeId = .ok declared) :
    (∃ value, Declaration.custom name value ∈ declared) ↔ e.NamesValue c name modeId := by
  obtain ⟨values, hvalues, heq⟩ := bind_eq_ok.mp h
  cases heq
  unfold namedValues at hvalues
  obtain ⟨members, hmembers, hvalues⟩ := bind_eq_ok.mp hvalues
  obtain ⟨found, hfound, heq⟩ := bind_eq_ok.mp hvalues
  cases heq
  have hnamed : (∃ b ∈ found, ∃ value, b = some (name, value)) ↔ ∃ v ∈ members,
      (e.scope .css).cssName v = name ∧ (OrderedMap.find? modeId v.values).isSome = true := by
    refine exists_mapM_iff hfound fun v b hb => ?_
    obtain ⟨text?, htext, heq⟩ := bind_eq_ok.mp hb
    cases heq
    rw [← Scope.isSome_variableText? htext]
    cases text? with
    | none => simp
    | some text => simp
  unfold NamesValue
  simp only [← mem_members hmembers]
  refine Iff.trans ?_ hnamed
  constructor
  · rintro ⟨value, hvalue⟩
    obtain ⟨⟨shown, text⟩, hmem, heq⟩ := List.mem_map.mp hvalue
    obtain ⟨b, hb, hsome⟩ := List.mem_filterMap.mp hmem
    have hname : shown = name := Declaration.custom_inj heq
    exact ⟨b, hb, text, hsome.trans (congrArg (fun n => some (n, text)) hname)⟩
  · rintro ⟨b, hb, value, rfl⟩
    exact ⟨value, List.mem_map.mpr ⟨_, List.mem_filterMap.mpr ⟨_, hb, rfl⟩, rfl⟩⟩

/-- The rules of a collection declare its members with a value for one of its modes. -/
lemma exists_custom_mem_modeBlocks {rules : CollectionBlocks} (h : e.modeBlocks c = .ok rules) :
    (∃ b ∈ rules.blocks, ∃ value, Declaration.custom name value ∈ b.declarations) ↔
      ∃ modeId ∈ c.modes.map (·.id), e.NamesValue c name modeId := by
  obtain ⟨blocks, hblocks, heq⟩ := bind_eq_ok.mp h
  cases heq
  simp only [List.mem_map, exists_exists_and_eq_and]
  refine exists_mapM_iff hblocks fun mode b hb => ?_
  obtain ⟨declared, hdeclared, heq⟩ := bind_eq_ok.mp hb
  cases heq
  exact exists_custom_mem_declarations hdeclared

/-- The exported variables with a shown value are the members with a value for a shown mode. -/
lemma exists_exports_iff :
    (∃ c v, e.Exports c v ∧ e.HasShownValue c v ∧ (e.scope .css).cssName v = name) ↔
      ∃ c ∈ e.selected, ∃ modeId ∈ e.shownModeIds c, e.NamesValue c name modeId := by
  constructor
  · rintro ⟨c, v, hexported, ⟨modeId, hmode, hvalue⟩, hname⟩
    exact ⟨c, hexported.selected, modeId, hmode, v, ⟨hexported.known, hexported.member⟩, hname,
      hvalue⟩
  · rintro ⟨c, hc, modeId, hmode, v, ⟨hknown, hmember⟩, hname, hvalue⟩
    exact ⟨c, v, ⟨hc, hknown, hmember⟩, ⟨modeId, hmode, hvalue⟩, hname⟩

/-- The sheet of an export declares the exported variables with a shown value, and the given
styles. -/
lemma declaresName_propertyItems {styles : List BodyItem} {items : List CssItem}
    (h : e.propertyItems styles = .ok items) :
    DeclaresName items name ↔
      (∃ c v, e.Exports c v ∧ e.HasShownValue c v ∧ (e.scope .css).cssName v = name) ∨
        ∃ value, BodyItem.declaration (.custom name value) ∈ styles := by
  rw [exists_exports_iff]
  unfold propertyItems at h
  unfold DeclaresName Declares shownModeIds
  cases hmodes : e.settings.modeSelectors with
  | true =>
    rw [hmodes] at h
    obtain ⟨collections, hcollections, heq⟩ := bind_eq_ok.mp h
    cases heq
    simp only [Layout.mem_byMode, exists_or, if_true]
    have hrules : (∃ rules ∈ collections, ∃ b ∈ rules.blocks, ∃ value,
        Declaration.custom name value ∈ b.declarations) ↔
          ∃ c ∈ e.selected, ∃ modeId ∈ c.modes.map (·.id), e.NamesValue c name modeId :=
      exists_mapM_iff hcollections fun c rules h => exists_custom_mem_modeBlocks h
    refine or_congr (Iff.trans ?_ hrules) Iff.rfl
    constructor
    · rintro ⟨value, rules, hrules, b, hb, hdeclared⟩
      exact ⟨rules, hrules, b, hb, value, hdeclared⟩
    · rintro ⟨rules, hrules, b, hb, value, hdeclared⟩
      exact ⟨value, rules, hrules, b, hb, hdeclared⟩
  | false =>
    rw [hmodes] at h
    obtain ⟨sections, hsections, heq⟩ := bind_eq_ok.mp h
    cases heq
    simp only [Layout.mem_flat, exists_or, Bool.false_eq_true, if_false, List.mem_singleton,
      exists_eq_left]
    have hflat : (∃ part ∈ sections, ∃ value, Declaration.custom name value ∈ part.declarations) ↔
        ∃ c ∈ e.selected, e.NamesValue c name c.flatModeId := by
      refine exists_mapM_iff hsections fun c part hpart => ?_
      obtain ⟨declared, hdeclared, heq⟩ := bind_eq_ok.mp hpart
      cases heq
      exact exists_custom_mem_declarations hdeclared
    refine or_congr (Iff.trans ?_ hflat) Iff.rfl
    constructor
    · rintro ⟨value, part, hpart, hdeclared⟩
      exact ⟨part, hpart, value, hdeclared⟩
    · rintro ⟨part, hpart, value, hdeclared⟩
      exact ⟨value, part, hpart, hdeclared⟩

/-- The list of names of the selected collections has every exported variable. -/
lemma mem_collectionNames {names : List (List String)}
    (h : e.selected.mapM e.collectionNames = .ok names) :
    property ∈ names.flatten ↔
      ∃ c v, e.Exports c v ∧ "--" ++ (e.scope .css).cssName v = property := by
  have hlisted : (∃ listed ∈ names, property ∈ listed) ↔ ∃ c ∈ e.selected, ∃ v,
      (v ∈ e.library.vars ∧ v.collectionId = c.id) ∧
        "--" ++ (e.scope .css).cssName v = property := by
    refine exists_mapM_iff h fun c listed hlisted => ?_
    obtain ⟨members, hmembers, heq⟩ := bind_eq_ok.mp hlisted
    cases heq
    simp only [← mem_members hmembers]
    exact List.mem_map
  rw [List.mem_flatten, hlisted]
  constructor
  · rintro ⟨c, hc, v, ⟨hknown, hmember⟩, hname⟩
    exact ⟨c, v, ⟨hc, hknown, hmember⟩, hname⟩
  · rintro ⟨c, v, hexported, hname⟩
    exact ⟨c, hexported.selected, v, ⟨hexported.known, hexported.member⟩, hname⟩

/-! ## Both outputs -/

/-- Variables and styles together have the custom properties of the exported variables with a shown
value, and those that are listed for the styles. -/
lemma mem_customProperties_propertyItems {body : List BodyItem} {items : List CssItem}
    (h : e.propertyItems body = .ok items) {styles : List String}
    (hbody : ∀ name, (∃ value, BodyItem.declaration (.custom name value) ∈ body) ↔
      "--" ++ name ∈ styles)
    (hstyles : ∀ property ∈ styles, ∃ name, "--" ++ name = property) :
    property ∈ customProperties items ↔
      (∃ c v, e.Exports c v ∧ e.HasShownValue c v ∧ "--" ++ (e.scope .css).cssName v = property) ∨
        property ∈ styles := by
  simp only [mem_customProperties, declaresName_propertyItems h, hbody]
  constructor
  · rintro ⟨name, ⟨c, v, hexported, hvalue, rfl⟩ | hname, rfl⟩
    · exact Or.inl ⟨c, v, hexported, hvalue, rfl⟩
    · exact Or.inr hname
  · rintro (⟨c, v, hexported, hvalue, rfl⟩ | hproperty)
    · exact ⟨_, Or.inl ⟨c, v, hexported, hvalue, rfl⟩, rfl⟩
    · obtain ⟨name, rfl⟩ := hstyles property hproperty
      exact ⟨name, Or.inr hproperty, rfl⟩

/-- The sheet of an export has the custom properties of the exported variables with a shown value,
and those that are listed for the styles. -/
theorem mem_customProperties_cssItems {items : List CssItem} (h : e.cssItems = .ok items)
    {styles classes : List String} (hstyles : e.styleNames = .ok (styles, classes)) :
    property ∈ customProperties items ↔
      (∃ c v, e.Exports c v ∧ e.HasShownValue c v ∧ "--" ++ (e.scope .css).cssName v = property) ∨
        property ∈ styles := by
  have hnone : ∀ name, (∃ value, BodyItem.declaration (.custom name value) ∈
      ([] : List BodyItem)) ↔ "--" ++ name ∈ ([] : List String) := by simp
  unfold cssItems at h
  unfold styleNames at hstyles
  cases hexported : e.exportedStyles with
  | none =>
    rw [hexported] at h hstyles
    cases hstyles
    exact mem_customProperties_propertyItems h hnone (List.forall_mem_nil _)
  | some exported =>
    rw [hexported] at h hstyles
    dsimp only at h hstyles
    rcases StyleOutput.eq_vars_or_eq_classes e.settings.styleOutput with houtput | houtput
    · rw [houtput] at h hstyles
      obtain ⟨body, hbody, hitems⟩ := bind_eq_ok.mp h
      obtain ⟨names, hnames, heq⟩ := bind_eq_ok.mp hstyles
      cases heq
      exact mem_customProperties_propertyItems hitems
        (fun name => StyleScope.declares_iff_mem_propertyNames hbody hnames)
        fun property => StyleScope.exists_of_mem_propertyNames hnames
    · rw [houtput] at h hstyles
      obtain ⟨properties, hproperties, h⟩ := bind_eq_ok.mp h
      obtain ⟨rules, hrules, h⟩ := bind_eq_ok.mp h
      cases h
      cases hstyles
      have hclasses : customProperties rules = [] :=
        customProperties_eq_nil (StyleScope.not_declaresName_classItems hrules)
      rw [customProperties_append, customProperties_append, hclasses, List.append_nil]
      refine Iff.trans ?_
        (mem_customProperties_propertyItems hproperties hnone (List.forall_mem_nil _))
      exact iff_of_eq (congrArg (property ∈ ·) (List.append_nil _))

/-- The file of names of an export lists every exported variable, and the sheet declares those that
have a value for a mode that the layout shows; both have the same styles.  The two have the same
custom properties exactly if every exported variable shares its name with one that has a shown value,
or with a style. -/
theorem names_of_exports {text file : String} (hcss : e.toCss = .ok text)
    (hfile : e.toTypeScript = .ok file) (hvars : e.library.vars ≠ []) :
    ∃ items names styles classes,
      e.cssItems = .ok items ∧ text = cssText (e.header cssTitle) items ∧
      e.styleNames = .ok (styles, classes) ∧
      (names ≠ [] → file = fileText .block (e.header namesTitle)
        (unionLines "CSSVariableName" names ++ [""] ++ propertiesAugmentation ++
          if classes.isEmpty then [] else [""] ++ unionLines "StyleClassName" classes)) ∧
      (names = [] → file = noNamesText) ∧
      (∀ property, property ∈ names ↔
        (∃ c v, e.Exports c v ∧ "--" ++ (e.scope .css).cssName v = property) ∨
          property ∈ styles) ∧
      (∀ property, property ∈ customProperties items ↔
        (∃ c v, e.Exports c v ∧ e.HasShownValue c v ∧
          "--" ++ (e.scope .css).cssName v = property) ∨ property ∈ styles) ∧
      ((∀ property, property ∈ names ↔ property ∈ customProperties items) ↔
        ∀ c v, e.Exports c v →
          (∃ c' v', e.Exports c' v' ∧ e.HasShownValue c' v' ∧
            (e.scope .css).cssName v' = (e.scope .css).cssName v) ∨
          "--" ++ (e.scope .css).cssName v ∈ styles) := by
  have hsome : e.library.vars.isEmpty = false := List.isEmpty_eq_false_iff.mpr hvars
  unfold toCss at hcss
  unfold toTypeScript at hfile
  rw [hsome] at hcss hfile
  obtain ⟨items, hitems, htext⟩ := bind_eq_ok.mp hcss
  obtain ⟨named, hnamed, hfile⟩ := bind_eq_ok.mp hfile
  obtain ⟨⟨styles, classes⟩, hstyles, hfile⟩ := bind_eq_ok.mp hfile
  have hnames : ∀ property, property ∈ named.flatten ++ styles ↔
      (∃ c v, e.Exports c v ∧ "--" ++ (e.scope .css).cssName v = property) ∨
        property ∈ styles := by
    intro property
    rw [List.mem_append, mem_collectionNames hnamed]
  have hproperties : ∀ property, property ∈ customProperties items ↔
      (∃ c v, e.Exports c v ∧ e.HasShownValue c v ∧ "--" ++ (e.scope .css).cssName v = property) ∨
        property ∈ styles := fun _ => mem_customProperties_cssItems hitems hstyles
  have hfile : namesText (e.header namesTitle) (named.flatten ++ styles) classes = file :=
    Except.ok.inj hfile
  refine ⟨items, named.flatten ++ styles, styles, classes, hitems, (Except.ok.inj htext).symm,
    hstyles, fun hne => ?_, fun hnil => ?_, hnames, hproperties, ?_⟩
  · rw [← hfile]
    exact if_neg fun hempty => hne (List.isEmpty_iff.mp hempty)
  · rw [← hfile]
    exact if_pos (List.isEmpty_iff.mpr hnil)
  · simp only [hnames, hproperties]
    constructor
    · intro hsame c v hexported
      obtain ⟨c', v', hexported', hvalue, hname⟩ | hstyle :=
        (hsame _).mp (Or.inl ⟨c, v, hexported, rfl⟩)
      · exact Or.inl ⟨c', v', hexported', hvalue, (String.append_right_inj "--").mp hname⟩
      · exact Or.inr hstyle
    · intro hshared property
      constructor
      · rintro (⟨c, v, hexported, rfl⟩ | hstyle)
        · obtain ⟨c', v', hexported', hvalue, hname⟩ | hstyle := hshared c v hexported
          · exact Or.inl ⟨c', v', hexported', hvalue, congrArg ("--" ++ ·) hname⟩
          · exact Or.inr hstyle
        · exact Or.inr hstyle
      · rintro (⟨c, v, hexported, _, hname⟩ | hstyle)
        · exact Or.inl ⟨c, v, hexported, hname⟩
        · exact Or.inr hstyle

end DirectExport

/-! ### A variable without a value -/

/-- A variable with a value for the mode of its collection. -/
def baseVariable : Variable := { shortVariable "b" "c" with name := "base" }

/-- A variable without values. -/
def ghostVariable : Variable := { shortVariable "g" "c" with name := "ghost", values := [] }

/-- An export of both variables. -/
def ghostExport : DirectExport :=
  { library := ⟨[baseVariable, ghostVariable], [oneModeCollection "c" "Spacing"]⟩, settings := {} }

/-- The sheet of the first variable. -/
def baseSheet : List CssItem :=
  [Layout.flat {} [⟨"Spacing", [.custom "base" "\"x\""]⟩] []]

/-- The variables are in order. -/
lemma members_ghostExport : ghostExport.members (oneModeCollection "c" "Spacing") =
    .ok [baseVariable, ghostVariable] := by
  have hkeyed : [baseVariable, ghostVariable].mapM (fun v => do
      return (← NaturalOrder.key ((ghostExport.scope .css).cssName v), v)) =
        .ok [([.text "base", .whole "base"], baseVariable),
          ([.text "ghost", .whole "ghost"], ghostVariable)] := rfl
  refine NaturalOrder.sortBy_of_pairwise hkeyed ?_
  have hbefore : "base" < "ghost" := by decide
  simpa [NaturalOrder.before, SortChunk.before] using (not_lt.mpr hbefore.le)

/-- The sheet has one of the variables only. -/
lemma cssItems_ghostExport : ghostExport.cssItems = .ok baseSheet := by
  have hnamed : ghostExport.namedValues .css (oneModeCollection "c" "Spacing") "m" =
      .ok [("base", "\"x\"")] := by
    unfold DirectExport.namedValues
    exact (bind_of_ok members_ghostExport _).trans rfl
  have hdeclarations : ghostExport.declarations (oneModeCollection "c" "Spacing") "m" =
      .ok [.custom "base" "\"x\""] := bind_of_ok hnamed _
  exact DirectExport.cssItems_flat rfl rfl (mapM_singleton (bind_of_ok hdeclarations _))

/-- Both variables are listed, and one of them is declared. -/
theorem DirectExport.names_of_exports_ghost :
    ghostExport.toCss = .ok (cssText (ghostExport.header cssTitle) baseSheet) ∧
      ghostExport.toTypeScript = .ok (namesText (ghostExport.header namesTitle)
        ["--base", "--ghost"] []) ∧
      ghostExport.library.vars ≠ [] ∧ customProperties baseSheet = ["--base"] ∧
      ¬ ∀ c v, ghostExport.Exports c v →
        ∃ c' v', ghostExport.Exports c' v' ∧ ghostExport.HasShownValue c' v' ∧
          (ghostExport.scope .css).cssName v' = (ghostExport.scope .css).cssName v := by
  have hcss : ghostExport.toCss = .ok (cssText (ghostExport.header cssTitle) baseSheet) :=
    bind_of_ok cssItems_ghostExport _
  have hnames : ghostExport.selected.mapM ghostExport.collectionNames =
      .ok [["--base", "--ghost"]] :=
    mapM_singleton (bind_of_ok members_ghostExport _)
  have hfile : ghostExport.toTypeScript = .ok (namesText (ghostExport.header namesTitle)
      ["--base", "--ghost"] []) := bind_of_ok hnames _
  have hvars : ghostExport.library.vars ≠ [] := List.cons_ne_nil _ _
  obtain ⟨items, _, _, _, hitems, _, _, _, _, hlisted, _, hsame⟩ :=
    DirectExport.names_of_exports hcss hfile hvars
  have hsheet : items = baseSheet := Except.ok.inj (hitems.symm.trans cssItems_ghostExport)
  have hproperties : customProperties baseSheet = ["--base"] := by decide
  refine ⟨hcss, hfile, hvars, hproperties, fun hshared => ?_⟩
  have hexported : ghostExport.Exports (oneModeCollection "c" "Spacing") ghostVariable :=
    ⟨List.mem_cons_self, List.mem_cons_of_mem _ List.mem_cons_self, rfl⟩
  have hghost : "--ghost" ∈ customProperties items := by
    rw [← hsame.mpr fun c v hv => Or.inl (hshared c v hv), hlisted]
    exact Or.inl ⟨_, _, hexported, rfl⟩
  rw [hsheet, hproperties] at hghost
  exact absurd (List.mem_singleton.mp hghost) (by decide)

end DesignTokens
