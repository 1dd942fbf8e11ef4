import DesignTokens.Proofs.Export.DeclaredNames
import DesignTokens.Proofs.Token.Contents
import DesignTokens.Proofs.Token.DottedPath
import DesignTokens.Proofs.Token.Places

/-!
# Aliases in documents of libraries

An alias becomes a reference to the dotted path of its target, which the renderer looks up again in
the document.  If no other token has the same dotted path, the reference leads back to the token of
the target, whatever dots the names hold, and is rendered as a reference to the custom property that
the outputs declare for that token.
-/

namespace DesignTokens

/-! ## References of tokens -/

namespace Scope

variable {s : Scope} {c : Collection} {v : Variable} {f : Formatting} {modeId ref : String}

/-- A literal, calculated or not, is no reference. -/
lemma literal_ne_reference {x : Except Fault (Option Literal)} {y : Except Fault Literal} :
    (do
      match ← x with
      | some result => return FlatValue.literal result
      | none => return .literal (← y)) ≠ .ok (.reference ref) := by
  intro h
  obtain ⟨result, _, h⟩ := bind_eq_ok.mp h
  cases result with
  | some l => cases h
  | none =>
    obtain ⟨l, _, h⟩ := bind_eq_ok.mp h
    cases h

/-- Only an alias becomes a reference. -/
lemma aliasOf_of_flatValue {value : VariableValue}
    (h : s.flatValue v f modeId value = .ok (.reference ref)) :
    ∃ id, value = .aliasOf id ∧ s.referenceTo id = .reference ref := by
  cases value with
  | aliasOf id => exact ⟨id, rfl, Except.ok.inj h⟩
  | color c => exact absurd h literal_ne_reference
  | number x => exact absurd h literal_ne_reference
  | text t => exact absurd h literal_ne_reference
  | bool b => exact absurd h literal_ne_reference

/-- A reference that the token of a variable shows comes from an alias in a mode that is shown. -/
theorem exists_alias_of_shows {token : Token} (h : s.token? c v = .ok (some token))
    (hshows : token.value.Shows (.reference ref)) :
    ∃ modeId ∈ c.shownModeIds, ∃ id, OrderedMap.find? modeId v.values = some (.aliasOf id) ∧
      s.referenceTo id = .reference ref := by
  unfold Scope.token? at h
  obtain ⟨directives, _, h⟩ := bind_eq_ok.mp h
  obtain ⟨value, hvalue, h⟩ := bind_eq_ok.mp h
  cases value with
  | none => cases h
  | some value =>
    cases h
    obtain ⟨modeId, hmode, y, hfind, hy⟩ := exists_of_shows hvalue hshows
    obtain ⟨id, rfl, href⟩ := aliasOf_of_flatValue hy
    exact ⟨modeId, hmode, id, hfind, href⟩

end Scope

/-! ## Resolved and rendered references -/

namespace Document

variable {d : Document} {ref : String} {path : List String} {target : Token}

/-- A reference leads to a token: it is resolved to the path of the token, it is rendered as a
reference to the name that the token is rendered under, and the sheets that show the collection of
the token declare that name. -/
structure LeadsTo (d : Document) (ref : String) (path : List String) (target : Token) : Prop where
  resolved : d.resolveReference ref = some path
  rendered : ∀ settings language token, Renderer.flatText ⟨d, settings, language⟩ token
    (.reference ref) = .ok (CssName.reference (settings.cssName ("/".intercalate path)))
  named : ∀ settings language rendered, Renderer.token ⟨d, settings, language⟩ path target =
    .ok rendered → rendered.name = settings.cssName ("/".intercalate path)
  css : ∀ settings : Settings, (settings.selection = [] ∨ path.headD "" ∈ settings.selection) →
    ∀ items, d.cssItems settings = .ok items →
      DeclaresName items (settings.cssName ("/".intercalate path))
  scss : ∀ settings : Settings, (settings.selection = [] ∨ path.headD "" ∈ settings.selection) →
    ∀ items, d.scssItems settings = .ok items →
      DeclaresDollar items (settings.cssName ("/".intercalate path))

/-- A token of a collection that is shown has a name in the outputs. -/
lemma HasTokenAt.namesToken (ht : d.HasTokenAt path target) {settings : Settings}
    (hselected : settings.selection = [] ∨ path.headD "" ∈ settings.selection) :
    d.NamesToken settings (settings.cssName ("/".intercalate path)) := by
  obtain ⟨name, tree, rest, rfl, htree, hwalk⟩ := ht
  exact ⟨(name, tree), mem_selected_iff.mpr ⟨htree, hselected⟩, (name :: rest, target),
    TokenTree.mem_walk_singleton.mpr ⟨rest, rfl, hwalk⟩, rfl⟩

/-- A reference that is resolved to the path of a token leads to the token. -/
lemma leadsTo_of_resolved (ht : d.HasTokenAt path target)
    (h : d.resolveReference ref = some path) : d.LeadsTo ref path target where
  resolved := h
  rendered settings language token := by
    show Except.ok (Renderer.referenceText _ ref) = _
    unfold Renderer.referenceText Renderer.referencePath
    rw [h]
    rfl
  named _ _ _ hrendered := (Renderer.name_token hrendered).1
  css _ hselected _ hitems := (declaresName_cssItems hitems).mpr (Or.inl (ht.namesToken hselected))
  scss _ hselected _ hitems :=
    (declaresDollar_scssItems hitems).mpr (Or.inl (ht.namesToken hselected))

/-- What an alias of a known variable refers to is the dotted path of the variable. -/
lemma dotted_of_referenceTo {library : Library} {id : String} {t : Variable} {home : Collection}
    (href : library.referenceTo id = .reference ref) (htarget : library.byId? id = some t)
    (hhome : library.home? t = some home) :
    dotted (home.name :: nameSegments t.name) = ref.toList := by
  have hpath : library.dottedPath t = ref := by
    unfold Library.referenceTo at href
    rw [htarget] at href
    exact FlatValue.reference.inj href
  have hname : library.homeName t = home.name := by
    unfold Library.homeName
    rw [hhome]
    rfl
  rw [← hpath, Library.toList_dottedPath, hname]

end Document

/-! ### An alias across collections with dots in their names -/

/-- A collection with a dot in its name. -/
def brandCollection : Collection :=
  { id := "brand", name := "brand.core", modes := [⟨"1:0", "Value"⟩], defaultModeId := "1:0" }

/-- A collection for aliases. -/
def themeColors : Collection :=
  { id := "colors", name := "theme", modes := [⟨"2:0", "Value"⟩], defaultModeId := "2:0" }

/-- A text with a dot and a slash in its name. -/
def brandBlue : Variable :=
  { id := "blue", name := "blue.dark/500", type := .text, values := [("1:0", .text "navy")],
    collectionId := "brand" }

/-- An alias of the text. -/
def accentColor : Variable :=
  { id := "accent", name := "accent.main", type := .text, values := [("2:0", .aliasOf "blue")],
    collectionId := "colors" }

/-- The library of the two variables. -/
def brandLibrary : Library := ⟨[brandBlue, accentColor], [brandCollection, themeColors]⟩

/-- The token of a text variable. -/
def textToken (value : FlatValue) : Token :=
  { type := .string, value := .flat value, origin := some { resolvedType := some "STRING" } }

/-- The document of the library. -/
def brandDocument : Document :=
  { collections := [("brand.core", [("blue.dark", .group
        [("500", .token (textToken (.literal (.text "navy"))))])]),
      ("theme", [("accent.main", .token (textToken (.reference "brand.core.blue.dark.500")))])]
    generatedAt := fixedTimestamp }

/-- The document is the one of the library. -/
lemma ofLibrary_brand : Document.ofLibrary brandLibrary {} {} none "" "" = .ok brandDocument := by
  have hblue : brandCollection.members Variable.name brandLibrary.vars = .ok [brandBlue] :=
    NaturalOrder.sortBy_singleton rfl
  have haccent : themeColors.members Variable.name brandLibrary.vars = .ok [accentColor] :=
    NaturalOrder.sortBy_singleton rfl
  have hbrandTree : (Scope.ofSettings brandLibrary {}).tree brandCollection =
      .ok [("blue.dark", .group [("500", .token (textToken (.literal (.text "navy"))))])] := by
    unfold Scope.tree
    exact (bind_of_ok hblue _).trans rfl
  have hthemeTree : (Scope.ofSettings brandLibrary {}).tree themeColors =
      .ok [("accent.main", .token (textToken (.reference "brand.core.blue.dark.500")))] := by
    unfold Scope.tree
    exact (bind_of_ok haccent _).trans rfl
  exact Document.ofLibrary_two rfl hbrandTree hthemeTree

/-- The tokens of the document are those of the two variables. -/
lemma mem_paths_brandDocument {path : List String} {t : Token}
    (h : brandDocument.HasTokenAt path t) :
    path = ["brand.core", "blue.dark", "500"] ∨ path = ["theme", "accent.main"] := by
  obtain ⟨name, tree, rest, rfl, htree, hwalk⟩ := h
  rcases List.mem_cons.mp htree with heq | htheme
  · cases heq
    have hrest := List.mem_singleton.mp hwalk
    cases hrest
    exact Or.inl rfl
  · cases List.mem_singleton.mp htheme
    have hrest := List.mem_singleton.mp hwalk
    cases hrest
    exact Or.inr rfl

end DesignTokens
