import DesignTokens.Export.Direct
import DesignTokens.Export.Layout
import DesignTokens.Proofs.Name.Order
import DesignTokens.Proofs.Separators
import DesignTokens.Proofs.Token.Tree
import Mathlib.Tactic.SplitIfs

/-!
# What sheets declare

The two layouts of a stylesheet put the declarations of collections and modes into rules, with
comments and blank lines between them, and the styles of the document into one of the rules.  Neither
leaves out a declaration or adds one (`Layout.mem_flat`, `Layout.mem_byMode`).

In the flat layout every token of the selected collections of a document, and every variable with a
value of the selected collections of a library, has a declaration in the one rule of the sheet.  On
both ways the values are computed before they are sorted and laid out, so each declaration carries
the text that its own token or variable has.
-/

namespace DesignTokens

/-! ## Rules -/

namespace Layout

variable {s : Settings} {styles : List BodyItem} {declared : Declaration}

/-- A rule declares the declarations of its body. -/
lemma mem_declarations_rule {selector : String} {body : List BodyItem} :
    declared ∈ (CssItem.rule selector body).declarations ↔ BodyItem.declaration declared ∈ body := by
  unfold CssItem.declarations
  rw [List.mem_filterMap]
  constructor
  · rintro ⟨item, hitem, hdeclared⟩
    cases item with
    | declaration d =>
      cases hdeclared
      exact hitem
    | blank => cases hdeclared
    | comment text => cases hdeclared
  · exact fun h => ⟨_, h, rfl⟩

/-- The items of a section declare its declarations. -/
lemma mem_sectionItems {c : CollectionSection} :
    BodyItem.declaration declared ∈ sectionItems s c ↔ declared ∈ c.declarations := by
  unfold sectionItems
  split_ifs <;> simp

/-- The flat rule declares what its sections and the styles declare. -/
lemma mem_flat {sections : List CollectionSection} :
    declared ∈ [flat s sections styles].flatMap CssItem.declarations ↔
      (∃ c ∈ sections, declared ∈ c.declarations) ∨ BodyItem.declaration declared ∈ styles := by
  rw [List.flatMap_singleton]
  refine mem_declarations_rule.trans (List.mem_append.trans (or_congr ?_ Iff.rfl))
  constructor
  · intro h
    obtain hblank | ⟨l, hl, hdeclared⟩ := mem_of_mem_intercalate h
    · simp at hblank
    · obtain ⟨c, hc, rfl⟩ := List.mem_map.mp hl
      exact ⟨c, hc, mem_sectionItems.mp hdeclared⟩
  · rintro ⟨c, hc, hdeclared⟩
    exact mem_intercalate (List.mem_map_of_mem hc) (mem_sectionItems.mpr hdeclared)

/-- The items of the rule of a mode declare the declarations of the mode and the styles they take. -/
lemma mem_blockItems {b : ModeBlock} :
    declared ∈ (blockItems s b styles).flatMap CssItem.declarations ↔
      declared ∈ b.declarations ∨ BodyItem.declaration declared ∈ styles := by
  have hrule : declared ∈ (CssItem.rule (modeSelector (selector s) b.mode b.isDefault)
      (b.declarations.map .declaration ++ styles)).declarations ↔
        declared ∈ b.declarations ∨ BodyItem.declaration declared ∈ styles := by
    rw [mem_declarations_rule, List.mem_append]
    simp
  rw [← hrule]
  unfold blockItems
  split_ifs <;> simp [CssItem.declarations]

/-- The rules of several modes and the styles that are left declare the declarations of the modes
and the styles. -/
lemma mem_blocksItems {blocks : List ModeBlock} :
    (declared ∈ (blocksItems s blocks styles).1.flatMap CssItem.declarations ∨
        BodyItem.declaration declared ∈ (blocksItems s blocks styles).2) ↔
      (∃ b ∈ blocks, declared ∈ b.declarations) ∨ BodyItem.declaration declared ∈ styles := by
  induction blocks generalizing styles with
  | nil => simp [blocksItems]
  | cons b rest ih =>
    unfold blocksItems
    dsimp only
    rw [List.flatMap_append, List.mem_append, or_assoc, ih, mem_blockItems]
    -- the styles go to the first rule of a default mode, or are passed on
    cases b.isDefault with
    | false => simp [or_assoc]
    | true => simp [or_right_comm]

/-- The rules of several collections and the styles that are left declare the declarations of the
modes of the collections and the styles. -/
lemma mem_collectionsItems {collections : List CollectionBlocks} :
    (declared ∈ (collectionsItems s collections styles).1.flatMap CssItem.declarations ∨
        BodyItem.declaration declared ∈ (collectionsItems s collections styles).2) ↔
      (∃ c ∈ collections, ∃ b ∈ c.blocks, declared ∈ b.declarations) ∨
        BodyItem.declaration declared ∈ styles := by
  induction collections generalizing styles with
  | nil => simp [collectionsItems]
  | cons c rest ih =>
    have htitle : declared ∉ (if s.collectionComments then
        [CssItem.comment ("Collection: " ++ c.name)] else []).flatMap CssItem.declarations := by
      split_ifs <;> simp [CssItem.declarations]
    unfold collectionsItems
    dsimp only
    rw [List.flatMap_append, List.mem_append, List.flatMap_append, List.mem_append,
      or_iff_right htitle, or_assoc, ih, ← or_assoc, or_right_comm, mem_blocksItems, or_right_comm]
    simp

/-- The rules of all modes declare the declarations of the modes and the styles. -/
lemma mem_byMode {collections : List CollectionBlocks} :
    declared ∈ (byMode s collections styles).flatMap CssItem.declarations ↔
      (∃ c ∈ collections, ∃ b ∈ c.blocks, declared ∈ b.declarations) ∨
        BodyItem.declaration declared ∈ styles := by
  rw [← mem_collectionsItems (s := s)]
  unfold byMode
  dsimp only
  rw [List.flatMap_append, List.mem_append]
  refine or_congr Iff.rfl ?_
  cases hleft : (collectionsItems s collections styles).2 with
  | nil => simp
  | cons item rest =>
    rw [← @mem_declarations_rule declared (selector s)]
    simp [CssItem.declarations]

end Layout

/-! ## Flat sheets -/

/-- A sheet declares a custom property with a value. -/
def Declares (items : List CssItem) (name value : String) : Prop :=
  Declaration.custom name value ∈ items.flatMap CssItem.declarations

/-- A sheet declares what the first part of it declares. -/
lemma Declares.append {items : List CssItem} {name value : String} (h : Declares items name value)
    (rest : List CssItem) : Declares (items ++ rest) name value := by
  unfold Declares
  rw [List.flatMap_append]
  exact List.mem_append_left _ h

/-- The flat rule declares what its sections declare. -/
lemma declares_flat {s : Settings} {sections : List CollectionSection} {styles : List BodyItem}
    {c : CollectionSection} {name value : String} (hc : c ∈ sections)
    (hdeclared : Declaration.custom name value ∈ c.declarations) :
    Declares [Layout.flat s sections styles] name value :=
  Layout.mem_flat.mpr (Or.inl ⟨c, hc, hdeclared⟩)

/-! ## Documents -/

namespace Renderer

variable {r : Renderer}

/-- A token of a selected collection is among the rendered tokens. -/
lemma exists_of_collections {collections : List (String × List RenderedToken)}
    (h : r.collections = .ok collections) {name : String} {tree : TokenTree}
    (hname : (name, tree) ∈ r.document.selected r.settings) {path : List String} {t : Token}
    (ht : (path, t) ∈ TokenTree.walk [] tree) :
    ∃ value tokens, r.valueOf t = .ok value ∧ (name, tokens) ∈ collections ∧
      RenderedToken.mk (r.cssName (name :: path)) value ∈ tokens := by
  unfold Renderer.collections at h
  obtain ⟨entry, hentry, hrendered⟩ := exists_of_mapM h hname
  obtain ⟨tokens, htokens, hpair⟩ := bind_eq_ok.mp hrendered
  cases hpair
  unfold Renderer.tokens at htokens
  obtain ⟨unsorted, hunsorted, hsorted⟩ := bind_eq_ok.mp htokens
  obtain ⟨token, htoken, hrendering⟩ :=
    exists_of_mapM hunsorted (@TokenTree.mem_walk_of_mem [name] tree (path, t) ht)
  obtain ⟨value, hvalue, heq⟩ := bind_eq_ok.mp hrendering
  cases heq
  exact ⟨value, tokens, hvalue, hentry, (NaturalOrder.mem_sortBy hsorted).mpr htoken⟩

end Renderer

/-- The flat properties of a document declare each token of a selected collection. -/
lemma Document.declares_propertyItems {r : Renderer} {styles : List BodyItem}
    {items : List CssItem} (h : Document.propertyItems r styles = .ok items)
    (hflat : r.settings.modeSelectors = false) {name : String} {tree : TokenTree}
    (hname : (name, tree) ∈ r.document.selected r.settings) {path : List String} {t : Token}
    (ht : (path, t) ∈ TokenTree.walk [] tree) :
    ∃ value, r.valueOf t = .ok value ∧
      Declares items (r.cssName (name :: path)) value.flatText := by
  unfold Document.propertyItems at h
  obtain ⟨collections, hcollections, h⟩ := bind_eq_ok.mp h
  rw [hflat] at h
  have hitems := Except.ok.inj h
  obtain ⟨value, tokens, hvalue, htokens, htoken⟩ :=
    Renderer.exists_of_collections hcollections hname ht
  refine ⟨value, hvalue, ?_⟩
  rw [← hitems]
  exact declares_flat (List.mem_map_of_mem htokens) (List.mem_map_of_mem htoken)

/-- The flat sheet of a document declares each token of a selected collection, with the text that
the token is rendered to. -/
theorem Document.declares_cssItems {d : Document} {s : Settings} {items : List CssItem}
    (h : d.cssItems s = .ok items) (hflat : s.modeSelectors = false) {name : String}
    {tree : TokenTree} (hname : (name, tree) ∈ d.selected s) {path : List String} {t : Token}
    (ht : (path, t) ∈ TokenTree.walk [] tree) :
    ∃ value, Renderer.valueOf { document := d, settings := s } t = .ok value ∧
      Declares items (Renderer.cssName { document := d, settings := s } (name :: path))
        value.flatText := by
  unfold Document.cssItems at h
  dsimp only at h
  cases houtput : s.styleOutput with
  | vars =>
    rw [houtput] at h
    obtain ⟨styles, _, h⟩ := bind_eq_ok.mp h
    exact Document.declares_propertyItems h hflat hname ht
  | classes =>
    rw [houtput] at h
    obtain ⟨properties, hproperties, h⟩ := bind_eq_ok.mp h
    obtain ⟨classes, _, h⟩ := bind_eq_ok.mp h
    have hitems := Except.ok.inj h
    obtain ⟨value, hvalue, hdeclared⟩ :=
      Document.declares_propertyItems hproperties hflat hname ht
    refine ⟨value, hvalue, ?_⟩
    rw [← hitems]
    exact hdeclared.append _

/-! ## Libraries -/

namespace DirectExport

variable {e : DirectExport}

/-- A variable with a value is among the declarations of its collection. -/
lemma exists_of_declarations {c : Collection} {modeId : String} {declared : List Declaration}
    (h : e.declarations c modeId = .ok declared) {v : Variable} (hv : v ∈ e.library.vars)
    (hmember : v.collectionId = c.id) :
    ∃ text?, (e.scope .css).variableText? modeId ((e.scope .css).formattingOf v) v = .ok text? ∧
      ∀ text, text? = some text →
        Declaration.custom ((e.scope .css).cssName v) text ∈ declared := by
  unfold declarations at h
  obtain ⟨values, hvalues, h⟩ := bind_eq_ok.mp h
  have hdeclarations := Except.ok.inj h
  unfold namedValues at hvalues
  obtain ⟨members, hmembers, hvalues⟩ := bind_eq_ok.mp hvalues
  obtain ⟨found, hfound, hvalues⟩ := bind_eq_ok.mp hvalues
  have hnamed := Except.ok.inj hvalues
  have hv : v ∈ members := by
    refine (NaturalOrder.mem_sortBy hmembers).mpr (List.mem_filter.mpr ⟨hv, ?_⟩)
    exact beq_iff_eq.mpr hmember
  obtain ⟨value?, hvalue?, hresult⟩ := exists_of_mapM hfound hv
  obtain ⟨text?, htext, heq⟩ := bind_eq_ok.mp hresult
  refine ⟨text?, htext, ?_⟩
  intro text hsome
  have hpair : value? = some ((e.scope .css).cssName v, text) := by
    rw [← Except.ok.inj heq, hsome]
    rfl
  rw [← hdeclarations, ← hnamed]
  exact List.mem_map.mpr ⟨_, List.mem_filterMap.mpr ⟨_, hvalue?, hpair⟩, rfl⟩

/-- The flat properties of a library declare each variable with a value of a selected collection. -/
lemma declares_propertyItems {styles : List BodyItem} {items : List CssItem}
    (h : e.propertyItems styles = .ok items) (hflat : e.settings.modeSelectors = false)
    {c : Collection} (hc : c ∈ e.selected) {v : Variable} (hv : v ∈ e.library.vars)
    (hmember : v.collectionId = c.id) :
    ∃ text?, (e.scope .css).variableText? c.flatModeId ((e.scope .css).formattingOf v) v =
        .ok text? ∧
      ∀ text, text? = some text → Declares items ((e.scope .css).cssName v) text := by
  unfold propertyItems at h
  rw [hflat] at h
  obtain ⟨sections, hsections, h⟩ := bind_eq_ok.mp h
  have hitems := Except.ok.inj h
  obtain ⟨part, hpart, hsection⟩ := exists_of_mapM hsections hc
  obtain ⟨declarations, hdeclarations, heq⟩ := bind_eq_ok.mp hsection
  cases heq
  obtain ⟨text?, htext, hdeclared⟩ := exists_of_declarations hdeclarations hv hmember
  refine ⟨text?, htext, fun text hsome => ?_⟩
  rw [← hitems]
  exact declares_flat hpart (hdeclared text hsome)

/-- The flat sheet of a library declares each variable with a value of a selected collection, with
the text that the variable has. -/
theorem declares_cssItems {items : List CssItem} (h : e.cssItems = .ok items)
    (hflat : e.settings.modeSelectors = false) {c : Collection} (hc : c ∈ e.selected)
    {v : Variable} (hv : v ∈ e.library.vars) (hmember : v.collectionId = c.id) :
    ∃ text?, (e.scope .css).variableText? c.flatModeId ((e.scope .css).formattingOf v) v =
        .ok text? ∧
      ∀ text, text? = some text → Declares items ((e.scope .css).cssName v) text := by
  unfold cssItems at h
  split at h
  · exact declares_propertyItems h hflat hc hv hmember
  · dsimp only at h
    split at h
    · obtain ⟨styles, _, h⟩ := bind_eq_ok.mp h
      exact declares_propertyItems h hflat hc hv hmember
    · obtain ⟨properties, hproperties, h⟩ := bind_eq_ok.mp h
      obtain ⟨classes, _, h⟩ := bind_eq_ok.mp h
      have hitems := Except.ok.inj h
      obtain ⟨text?, htext, hdeclared⟩ := declares_propertyItems hproperties hflat hc hv hmember
      refine ⟨text?, htext, fun text hsome => ?_⟩
      rw [← hitems]
      exact ((hdeclared text hsome).append _).append _

/-- The section of a collection with one variable declares that variable. -/
lemma flatSection_singleton {name text : String} {c : Collection} {v : Variable}
    (hmembers : e.members c = .ok [v])
    (hname : (e.scope .css).cssName v = name)
    (htext : (e.scope .css).variableText? c.flatModeId ((e.scope .css).formattingOf v) v =
      .ok (some text)) :
    e.flatSection c = .ok ⟨c.name, [.custom name text]⟩ := by
  have hnamed : e.namedValues .css c c.flatModeId = .ok [(name, text)] := by
    unfold namedValues
    refine (bind_of_ok hmembers _).trans ?_
    rw [List.mapM_cons, bind_of_ok htext, hname]
    rfl
  have hdeclarations : e.declarations c c.flatModeId = .ok [.custom name text] :=
    bind_of_ok hnamed _
  exact bind_of_ok hdeclarations _

/-- The flat sheet without styles has the sections of the selected collections. -/
lemma cssItems_flat {sections : List CollectionSection} (hstyles : e.exportedStyles = none)
    (hflat : e.settings.modeSelectors = false)
    (hsections : e.selected.mapM e.flatSection = .ok sections) :
    e.cssItems = .ok [Layout.flat e.settings sections []] := by
  unfold cssItems propertyItems
  rw [hstyles]
  dsimp only
  rw [hflat]
  exact bind_of_ok hsections _

end DirectExport

end DesignTokens
