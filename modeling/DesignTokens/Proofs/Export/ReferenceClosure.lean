import DesignTokens.Proofs.Export.FlatValues
import DesignTokens.Proofs.Export.References
import DesignTokens.Proofs.Name.Characters
import DesignTokens.Proofs.Resolve.Calculation
import DesignTokens.Proofs.Token.Completeness

/-!
# References of flat sheets

References reach a flat stylesheet in three ways: an alias is shown as a reference to the token of
its target, a quoted path of a calculation that is written out becomes a reference to the token at
the path, and a calculation may hold references of its own text, which stay as they are.  What comes
by the first two ways is declared by the sheet.  What comes by the third way is looked up among the
names of the variables when the calculation is evaluated (`Scope.exists_of_calculated?`), but the
sheet declares names that begin with the collection.  So the sheet declares all references it shows
if and only if it declares those of the texts themselves (`Document.references_declared_iff`).
-/

namespace DesignTokens

/-! ## Targets of aliases -/

/-- Every alias is to a variable that has a value in a mode which its collection shows. -/
def Library.HasAliasTargets (l : Library) : Prop :=
  ∀ v ∈ l.vars, ∀ modeId id, OrderedMap.find? modeId v.values = some (.aliasOf id) →
    ∃ t home, l.byId? id = some t ∧ l.home? t = some home ∧ t.isValuedIn home = true

namespace Document

section library

variable {library : Library} {settings : Settings} {options : DocumentOptions}
  {styles : Option Styles} {sourceFile generatedAt : String} {d : Document}
  (h : Document.ofLibrary library settings options styles sourceFile generatedAt = .ok d)
  (hselected : Collection.select (options.selected.getD []) library.collections =
    library.collections)
  (hcollections : (library.collections.map Collection.name).Nodup)

include h hselected hcollections

/-- A variable with a value has a token at its path. -/
lemma exists_hasTokenAt {v : Variable} {c : Collection} (hv : v ∈ library.vars)
    (hhome : library.home? v = some c) (hvalued : v.isValuedIn c = true) :
    ∃ t, d.HasTokenAt (c.name :: nameSegments v.name) t := by
  obtain ⟨hc, hid⟩ := Library.mem_of_home? hhome
  obtain ⟨before, after, hparts⟩ := List.append_of_mem hc
  have hlast : ∀ later ∈ after, later.name ≠ c.name := by
    intro later hlater hsame
    rw [hparts, List.map_append, List.map_cons] at hcollections
    have hnew := (List.nodup_cons.mp (List.nodup_append.mp hcollections).2.1).1
    exact hnew (List.mem_map.mpr ⟨later, hlater, hsame⟩)
  obtain ⟨tree, htree, hmem⟩ := exists_tree_of_last h (hselected.trans hparts) hlast
  have htoken := Scope.exists_token_of_valued htree (Library.mem_valued.mpr ⟨hv, hid.symm, hvalued⟩)
  obtain ⟨t, hwalk⟩ :=
    (Scope.exists_mem_tree_iff htree).mpr ⟨_, ⟨v, hv, hid.symm, rfl, htoken⟩, rfl⟩
  exact ⟨t, c.name, tree, nameSegments v.name, rfl, hmem, hwalk⟩

/-- A reference that a token shows is resolved to the path of a token, if aliases have targets. -/
theorem exists_of_shows_reference (haliases : library.HasAliasTargets) {path : List String}
    {t : Token} (ht : d.HasTokenAt path t) {ref : String} (hshows : t.value.Shows (.reference ref)) :
    ∃ found target, d.resolveReference ref = some found ∧ d.HasTokenAt found target := by
  obtain ⟨name, tree, rest, rfl, htree, hwalk⟩ := ht
  obtain ⟨c, _, v, hv, _, _, _, htoken⟩ := exists_of_mem_walk h htree hwalk
  obtain ⟨modeId, _, id, hfind, href⟩ := Scope.exists_alias_of_shows htoken hshows
  obtain ⟨target, home, hbyId, hhome, hvalued⟩ := haliases v hv modeId id hfind
  obtain ⟨token, htarget⟩ := exists_hasTokenAt h hselected hcollections
    (Library.mem_of_byId? hbyId) hhome hvalued
  have hresolved := isSome_resolveReference htarget (dotted_of_referenceTo href hbyId hhome)
  obtain ⟨found, hfound⟩ := Option.isSome_iff_exists.mp hresolved
  obtain ⟨token', hfoundToken, _⟩ := exists_of_resolveReference hfound
  exact ⟨found, token', hfound, hfoundToken⟩

end library

/-! ## Tokens of a flat sheet -/

/-- A sheet declares all custom properties that a text refers to. -/
def DeclaresReferences (items : List CssItem) (text : String) : Prop :=
  ∀ name, RefersTo text name → DeclaresName items name

/-- A sheet of a document declares a token at a path with the one text of the token. -/
def DeclaresToken (d : Document) (s : Settings) (items : List CssItem) (path : List String)
    (t : Token) (text : String) : Prop :=
  d.HasTokenAt path t ∧ Declares items (s.cssName ("/".intercalate path)) text ∧
    ∃ value, Renderer.valueOf { document := d, settings := s } t = .ok value ∧
      value.flatText = text

/-- A token is shown as a calculation that is written out, of the given parts. -/
def WritesOut (d : Document) (s : Settings) (t : Token) (parts : List WrittenPart) : Prop :=
  t.type = .number ∧ (∃ x, t.flatValue? = some (.literal (.number x))) ∧
    ∃ text, Renderer.calculation? { document := d, settings := s } t = some text ∧
      Renderer.calculationParts { document := d, settings := s } text = .ok parts

/-- A token is shown by references: as one, or as a calculation that is written out. -/
def ShowsReferences (d : Document) (s : Settings) (t : Token) : Prop :=
  (∃ ref, t.flatValue? = some (.reference ref)) ∨ ∃ parts, d.WritesOut s t parts

variable {d : Document} {s : Settings} {items : List CssItem} {path : List String} {t : Token}
  {text : String} {parts : List WrittenPart}

/-- The value that a token has where one is needed is one that it shows. -/
lemma shows_of_flatValue? {x : FlatValue} (h : t.flatValue? = some x) : t.value.Shows x := by
  unfold Token.flatValue? at h
  split at h
  · rename_i hvalue
    rw [hvalue]
    exact Option.some.inj h
  · rename_i hvalue
    rw [hvalue]
    obtain ⟨e, he, rfl⟩ := Option.map_eq_some_iff.mp h
    exact ⟨e, mem_of_preferDefault? he, rfl⟩

/-- A token with a reference is declared as the reference that is rendered. -/
lemma DeclaresToken.text_of_reference (h : d.DeclaresToken s items path t text) {ref : String}
    (href : t.flatValue? = some (.reference ref)) {found : List String}
    (hfound : d.resolveReference ref = some found) :
    text = CssName.reference (s.cssName ("/".intercalate found)) := by
  obtain ⟨_, _, value, hvalue, rfl⟩ := h
  have htext := Except.ok.inj (Renderer.flatText_of_valueOf hvalue href)
  rw [← htext]
  unfold Renderer.referenceText Renderer.referencePath
  rw [hfound]
  rfl

/-- A token with a calculation that is written out is declared as the calculation. -/
lemma DeclaresToken.text_of_writesOut (h : d.DeclaresToken s items path t text)
    (hparts : d.WritesOut s t parts) :
    text = CalcSyntax.css.finish (String.ofList (parts.flatMap WrittenPart.chars)) := by
  obtain ⟨_, _, value, hvalue, rfl⟩ := h
  obtain ⟨htype, ⟨x, hx⟩, calculation, hcalculation, hparts⟩ := hparts
  have htext := Renderer.flatText_of_valueOf hvalue hx
  change Renderer.literalText _ t (.number x) = _ at htext
  unfold Renderer.literalText at htext
  dsimp only at htext
  rw [if_pos htype, hcalculation] at htext
  dsimp only at htext
  rw [Renderer.calculationText_eq, hparts] at htext
  exact (Except.ok.inj htext).symm

/-- What takes the place of a quoted path in a calculation is the name of a token. -/
lemma WritesOut.exists_of_property_mem (h : d.WritesOut s t parts) (hkeyed : d.IsKeyed)
    {name : String} (hname : .property name ∈ parts) :
    ∃ found target, d.HasTokenAt found target ∧ name = s.cssName ("/".intercalate found) := by
  obtain ⟨_, _, text, _, hparts⟩ := h
  exact @Renderer.exists_of_property_mem { document := d, settings := s } hkeyed _ _ hparts _ hname

section sheet

variable (hkeyed : d.IsKeyed) (hitems : d.cssItems s = .ok items) (hflat : s.modeSelectors = false)
  (hshown : ∀ e ∈ d.collections, s.selection = [] ∨ e.1 ∈ s.selection)
  (hresolved : ∀ path t ref, d.HasTokenAt path t → t.value.Shows (.reference ref) →
    ∃ found target, d.resolveReference ref = some found ∧ d.HasTokenAt found target)

include hresolved in
/-- A token with a reference is declared as a reference to a token. -/
lemma DeclaresToken.exists_of_reference (h : d.DeclaresToken s items path t text) {ref : String}
    (href : t.flatValue? = some (.reference ref)) :
    ∃ found target, d.HasTokenAt found target ∧
      text = CssName.reference (s.cssName ("/".intercalate found)) := by
  obtain ⟨found, target, hfound, htarget⟩ := hresolved path t ref h.1 (shows_of_flatValue? href)
  exact ⟨found, target, htarget, h.text_of_reference href hfound⟩

include hitems hshown

/-- The sheet declares the name of each token. -/
lemma declaresName_of_hasTokenAt (ht : d.HasTokenAt path t) :
    DeclaresName items (s.cssName ("/".intercalate path)) := by
  have hselected : s.selection = [] ∨ path.headD "" ∈ s.selection := by
    obtain ⟨name, tree, rest, rfl, htree, _⟩ := ht
    exact hshown (name, tree) htree
  exact (declaresName_cssItems hitems).mpr (Or.inl (ht.namesToken hselected))

include hflat in
/-- The flat sheet declares each token with a text. -/
lemma exists_declaresToken (ht : d.HasTokenAt path t) :
    ∃ text, d.DeclaresToken s items path t text := by
  obtain ⟨name, tree, rest, rfl, htree, hwalk⟩ := id ht
  obtain ⟨value, hvalue, hdeclared⟩ :=
    declares_cssItems hitems hflat (mem_selected_iff.mpr ⟨htree, hshown _ htree⟩) hwalk
  exact ⟨value.flatText, ht, hdeclared, value, hvalue, rfl⟩

include hkeyed hflat hresolved in
/-- The flat sheet declares all that references and calculations refer to if and only if it declares
what the texts of calculations refer to themselves, where no name closes a reference early and no
calculation leaves one open. -/
lemma declaresReferences_iff
    (hclosing : ∀ path t, d.HasTokenAt path t → ')' ∉ (s.cssName ("/".intercalate path)).toList)
    (hcloses : ∀ path t parts, d.HasTokenAt path t → d.WritesOut s t parts →
      WrittenPart.Closes parts) :
    (∀ path t text, d.DeclaresToken s items path t text → d.ShowsReferences s t →
        DeclaresReferences items text) ↔
      ∀ path t parts, d.HasTokenAt path t → d.WritesOut s t parts →
        DeclaresReferences items (WrittenPart.ownText parts) := by
  have hnames : ∀ t parts, d.WritesOut s t parts → ∀ name, .property name ∈ parts →
      ')' ∉ name.toList := by
    intro t parts hparts name hname
    obtain ⟨found, target, htarget, rfl⟩ := hparts.exists_of_property_mem hkeyed hname
    exact hclosing found target htarget
  have hrefersTo : ∀ path t text parts name, d.DeclaresToken s items path t text →
      d.WritesOut s t parts → (RefersTo text name ↔
        RefersTo (WrittenPart.ownText parts) name ∨ (.property name ∈ parts ∧ name ≠ "")) := by
    intro path t text parts name htext hparts
    rw [htext.text_of_writesOut hparts]
    exact WrittenPart.refersTo_finish (hcloses path t parts htext.1 hparts) (hnames t parts hparts)
  constructor
  · intro hall path t parts ht hparts name hown
    obtain ⟨text, htext⟩ := exists_declaresToken hitems hflat hshown ht
    refine hall path t text htext (Or.inr ⟨parts, hparts⟩) name ?_
    exact (hrefersTo path t text parts name htext hparts).mpr (Or.inl hown)
  · rintro hown path t text htext (⟨ref, href⟩ | ⟨parts, hparts⟩) name hrefers
    · obtain ⟨found, target, htarget, rfl⟩ := htext.exists_of_reference hresolved href
      obtain ⟨_, rfl⟩ := (refersTo_reference (hclosing found target htarget)).mp hrefers
      exact declaresName_of_hasTokenAt hitems hshown htarget
    · rcases (hrefersTo path t text parts name htext hparts).mp hrefers with hself | ⟨hput, _⟩
      · exact hown path t parts htext.1 hparts name hself
      · obtain ⟨found, target, htarget, rfl⟩ := hparts.exists_of_property_mem hkeyed hput
        exact declaresName_of_hasTokenAt hitems hshown htarget

end sheet

/-- The flat sheet of the document of a library declares each token.  A token with a reference is
declared as a reference to a custom property that the sheet declares, and what takes the place of a
quoted path in a calculation is a reference to such a property, too.  What a calculation refers to
itself has the name of a variable, if it comes to a number without a warning.  Where no name closes a
reference early and no calculation leaves one open, the sheet declares all custom properties that
references and calculations refer to if and only if it declares those that the texts of the
calculations refer to themselves. -/
theorem references_declared_iff {library : Library} {settings : Settings}
    {options : DocumentOptions} {styles : Option Styles} {sourceFile generatedAt : String}
    (h : Document.ofLibrary library settings options styles sourceFile generatedAt = .ok d)
    (hselected : Collection.select (options.selected.getD []) library.collections =
      library.collections)
    (hcollections : (library.collections.map Collection.name).Nodup)
    (haliases : library.HasAliasTargets)
    (hitems : d.cssItems s = .ok items) (hflat : s.modeSelectors = false)
    (hshown : ∀ c ∈ library.collections, s.selection = [] ∨ c.name ∈ s.selection) :
    (∀ path t, d.HasTokenAt path t → ∃ text, d.DeclaresToken s items path t text) ∧
    (∀ path t text ref, d.DeclaresToken s items path t text →
      t.flatValue? = some (.reference ref) →
        ∃ name, text = CssName.reference name ∧ DeclaresName items name) ∧
    (∀ path t text parts, d.DeclaresToken s items path t text → d.WritesOut s t parts →
      text = CalcSyntax.css.finish (String.ofList (parts.flatMap WrittenPart.chars)) ∧
        ∀ name, .property name ∈ parts → DeclaresName items name) ∧
    (∀ f modeId q text raw, (Scope.ofSettings library settings).calculated? f modeId =
        .ok (some q) → f.calculation? = some text →
      .property raw ∈ referencesOf Reference.any? text → ∃ e ∈ library.entries,
        String.ofList raw = (Scope.ofSettings library settings).cssName e.item) ∧
    ((∀ path t, d.HasTokenAt path t → ')' ∉ (s.cssName ("/".intercalate path)).toList) →
      (∀ path t parts, d.HasTokenAt path t → d.WritesOut s t parts → WrittenPart.Closes parts) →
      ((∀ path t text, d.DeclaresToken s items path t text → d.ShowsReferences s t →
          DeclaresReferences items text) ↔
        ∀ path t parts, d.HasTokenAt path t → d.WritesOut s t parts →
          DeclaresReferences items (WrittenPart.ownText parts))) := by
  have hkeyed := isKeyed_ofLibrary h
  have hentries : ∀ e ∈ d.collections, s.selection = [] ∨ e.1 ∈ s.selection := by
    intro e he
    obtain ⟨c, hc, hname, _⟩ := exists_of_mem_collections h he
    rw [hname]
    exact hshown c (hselected ▸ hc)
  have hresolved : ∀ path t ref, d.HasTokenAt path t → t.value.Shows (.reference ref) →
      ∃ found target, d.resolveReference ref = some found ∧ d.HasTokenAt found target :=
    fun path t ref ht hshows =>
      exists_of_shows_reference h hselected hcollections haliases ht hshows
  refine ⟨fun path t ht => exists_declaresToken hitems hflat hentries ht,
    fun path t text ref htext href => ?_, fun path t text parts htext hparts => ?_,
    fun f modeId q text raw hq htext hraw => Scope.exists_of_calculated? hq htext hraw,
    declaresReferences_iff hkeyed hitems hflat hentries hresolved⟩
  · obtain ⟨found, target, htarget, rfl⟩ := htext.exists_of_reference hresolved href
    exact ⟨_, rfl, declaresName_of_hasTokenAt hitems hentries htarget⟩
  · refine ⟨htext.text_of_writesOut hparts, fun name hname => ?_⟩
    obtain ⟨found, target, htarget, rfl⟩ := hparts.exists_of_property_mem hkeyed hname
    exact declaresName_of_hasTokenAt hitems hentries htarget

end Document

/-! ### A calculation with a reference of its own -/

/-- A number. -/
def baseSpacing : Variable :=
  { id := "v", name := "base", type := .number, values := [("m", .number 8.0)],
    collectionId := "c" }

/-- A number that is calculated from the other one, which it names by its custom property. -/
def doubleSpacing : Variable :=
  { id := "w", name := "double", type := .number, values := [("m", .number 16.0)],
    collectionId := "c", description := "calc: var(--base) * 2" }

/-- The library of the two numbers. -/
def spacingLibrary : Library := ⟨[baseSpacing, doubleSpacing], [oneModeCollection "c" "Spacing"]⟩

/-- Settings by which calculations are written out. -/
def calcSettings : Settings := { calcExpressions := true }

/-- The formatting of the calculated number. -/
def doubleFormatting : Formatting :=
  (Scope.ofSettings spacingLibrary calcSettings).base.overlay
    { expression := some "var(--base) * 2" }

/-- The token of the number. -/
def baseToken : Token :=
  { type := .number
    value := .flat (.literal (.number 8.0))
    origin := some { resolvedType := some "FLOAT" } }

/-- The token of the calculated number. -/
def doubleToken : Token :=
  { type := .number
    value := .flat (.literal (.number 16.0))
    description := some "calc: var(--base) * 2"
    origin := some { resolvedType := some "FLOAT", expression := some "var(--base) * 2" } }

/-- The tree of the collection. -/
def spacingTree : TokenTree := [("base", .token baseToken), ("double", .token doubleToken)]

/-- The document of the library. -/
def spacingDocument : Document :=
  { collections := [("Spacing", spacingTree)], generatedAt := fixedTimestamp }

/-- The flat sheet of the document. -/
def spacingSheet : List CssItem :=
  [Layout.flat calcSettings [⟨"Spacing", [.custom "spacing-base" "8px",
    .custom "spacing-double" "calc(var(--base) * 2)"]⟩] []]

/-- The calculation has a value and gives no warning: its reference is the name of the number. -/
lemma calculated?_double :
    (Scope.ofSettings spacingLibrary calcSettings).calculated? doubleFormatting "m" =
      .ok (some { value := 16.0 }) := by
  have hreferences : referencesOf Reference.any? "var(--base) * 2" =
      [.property "base".toList] := by
    decide +kernel
  have hproperty : Scope.propertyIn? "var(--base)" = some "--base" := by decide +kernel
  have hnamed : (Scope.ofSettings spacingLibrary calcSettings).byReference
      (.property "base".toList) = .ok (some ⟨baseSpacing, oneModeCollection "c" "Spacing"⟩) := by
    show Except.ok ((Scope.propertyIn? "var(--base)").bind _) = _
    rw [hproperty]
    rfl
  have hfound : (Scope.ofSettings spacingLibrary calcSettings).lookUp "m" {}
      (.property "base".toList) =
        .ok { quantities := [("var(--base)", { value := 8.0 })] } := by
    unfold Scope.lookUp
    rw [hnamed]
    rfl
  have hsubstituted : Calculation.substituted "var(--base) * 2" = " __ref0  * 2" := by
    decide +kernel
  have hlexemes : Lexeme.scan " __ref0  * 2" =
      .ok [⟨.ident, "__ref0", 1⟩, ⟨.star, "*", 9⟩, ⟨.number, "2", 11⟩] := by
    decide +kernel
  have hparsed : Expr.parse " __ref0  * 2" =
      .ok (.binary .mul (.name "__ref0") (.number 2.0)) := by
    unfold Expr.parse
    rw [hlexemes]
    rfl
  have hresult : Calculation.ofText "var(--base) * 2"
      (fun reference => [("var(--base)", ({ value := 8.0 } : Quantity))].lookup reference) =
        { value := some 16.0 } := by
    unfold Calculation.ofText Calculation.compute Calculation.distinctReferences
    rw [hsubstituted, hparsed, hreferences]
    rfl
  have hcalculation : doubleFormatting.calculation? = some "var(--base) * 2" := rfl
  unfold Scope.calculated? Scope.calculate
  rw [hcalculation]
  dsimp only
  rw [hreferences, List.foldlM_cons, bind_of_ok hfound]
  show Except.ok _ = Except.ok _
  rw [hresult]
  rfl

/-- The calculated number has its token. -/
lemma token?_double : (Scope.ofSettings spacingLibrary calcSettings).token?
    (oneModeCollection "c" "Spacing") doubleSpacing = .ok (some doubleToken) := by
  have hliteral : (Scope.ofSettings spacingLibrary calcSettings).calculatedLiteral? .number
      doubleFormatting "m" = .ok (some (.number 16.0)) := by
    unfold Scope.calculatedLiteral?
    rw [calculated?_double]
    rfl
  have hflat : (Scope.ofSettings spacingLibrary calcSettings).flatValue doubleSpacing
      doubleFormatting "m" (.number 16.0) = .ok (.literal (.number 16.0)) := by
    unfold Scope.flatValue
    exact (bind_of_ok hliteral _).trans rfl
  have hvalue : (Scope.ofSettings spacingLibrary calcSettings).tokenValue?
      (oneModeCollection "c" "Spacing") doubleSpacing doubleFormatting =
        .ok (some (.flat (.literal (.number 16.0)))) :=
    map_eq_ok.mpr ⟨_, hflat, rfl⟩
  have hdirectives : Directives.parse doubleSpacing.description =
      .ok { expression := some "var(--base) * 2" } := rfl
  unfold Scope.token?
  exact (bind_of_ok hdirectives _).trans ((bind_of_ok hvalue _).trans rfl)

/-- The document is the one of the library. -/
lemma ofLibrary_spacing :
    Document.ofLibrary spacingLibrary calcSettings {} none "" "" = .ok spacingDocument := by
  have hmembers : (oneModeCollection "c" "Spacing").members Variable.name spacingLibrary.vars =
      .ok [baseSpacing, doubleSpacing] := by
    have hkeyed : [baseSpacing, doubleSpacing].mapM
        (fun v => do return (← NaturalOrder.key v.name, v)) =
          .ok [([.text "base", .whole "base"], baseSpacing),
            ([.text "double", .whole "double"], doubleSpacing)] := rfl
    exact NaturalOrder.sortBy_of_pairwise hkeyed (List.pairwise_pair.mpr (by decide))
  have hbase : (Scope.ofSettings spacingLibrary calcSettings).addToken
      (oneModeCollection "c" "Spacing") [] baseSpacing = .ok [("base", .token baseToken)] := rfl
  have hdouble : (Scope.ofSettings spacingLibrary calcSettings).addToken
      (oneModeCollection "c" "Spacing") [("base", .token baseToken)] doubleSpacing =
        .ok spacingTree := by
    unfold Scope.addToken
    exact (bind_of_ok token?_double _).trans rfl
  have htree : (Scope.ofSettings spacingLibrary calcSettings).tree
      (oneModeCollection "c" "Spacing") = .ok spacingTree := by
    unfold Scope.tree
    refine (bind_of_ok hmembers _).trans ?_
    rw [List.foldlM_cons, bind_of_ok hbase, List.foldlM_cons, bind_of_ok hdouble]
    rfl
  exact Document.ofLibrary_one rfl htree

/-- The renderer of the document. -/
def spacingRenderer : Renderer := { document := spacingDocument, settings := calcSettings }

/-- The parts of the calculation are its characters. -/
def doubleParts : List WrittenPart := "var(--base) * 2".toList.map .char

/-- The calculation is written as it is. -/
lemma calculationParts_double :
    spacingRenderer.calculationParts "var(--base) * 2" = .ok doubleParts :=
  Renderer.calculationParts_of_not_mem (by decide)

/-- The calculated number is shown as its calculation. -/
lemma token_double : spacingRenderer.token ["Spacing", "double"] doubleToken =
    .ok ⟨"spacing-double", .single "calc(var(--base) * 2)"⟩ := by
  have htext : spacingRenderer.calculationText "var(--base) * 2" =
      .ok "calc(var(--base) * 2)" := by
    rw [Renderer.calculationText_eq, calculationParts_double]
    rfl
  have hvalue : spacingRenderer.valueOf doubleToken = .ok (.single "calc(var(--base) * 2)") :=
    map_eq_ok.mpr ⟨_, htext, rfl⟩
  exact bind_of_ok hvalue _

/-- The sheet is the one of the document. -/
lemma cssItems_spacing : spacingDocument.cssItems calcSettings = .ok spacingSheet := by
  have hbase : spacingRenderer.token ["Spacing", "base"] baseToken =
      .ok ⟨"spacing-base", .single "8px"⟩ := rfl
  have htokens : spacingRenderer.tokens "Spacing" spacingTree =
      .ok [⟨"spacing-base", .single "8px"⟩,
        ⟨"spacing-double", .single "calc(var(--base) * 2)"⟩] := by
    have hwalk : spacingTree.walk ["Spacing"] =
        [(["Spacing", "base"], baseToken), (["Spacing", "double"], doubleToken)] := rfl
    have hkeyed : [RenderedToken.mk "spacing-base" (.single "8px"),
        ⟨"spacing-double", .single "calc(var(--base) * 2)"⟩].mapM
          (fun t => do return (← NaturalOrder.key t.name, t)) =
            .ok [([.text "spacing-base", .whole "spacing-base"],
                ⟨"spacing-base", .single "8px"⟩),
              ([.text "spacing-double", .whole "spacing-double"],
                ⟨"spacing-double", .single "calc(var(--base) * 2)"⟩)] := rfl
    unfold Renderer.tokens
    rw [hwalk, List.mapM_cons, bind_of_ok hbase, List.mapM_cons, bind_of_ok token_double]
    exact NaturalOrder.sortBy_of_pairwise hkeyed (List.pairwise_pair.mpr (by decide))
  have hcollections : spacingRenderer.collections =
      .ok [("Spacing", [⟨"spacing-base", .single "8px"⟩,
        ⟨"spacing-double", .single "calc(var(--base) * 2)"⟩])] :=
    mapM_singleton (bind_of_ok htokens _)
  show Document.propertyItems spacingRenderer [] = _
  unfold Document.propertyItems
  exact bind_of_ok hcollections _

/-- The tokens of the document are the two numbers. -/
lemma eq_of_hasTokenAt_spacing {path : List String} {t : Token}
    (h : spacingDocument.HasTokenAt path t) : t = baseToken ∨ t = doubleToken := by
  obtain ⟨name, tree, rest, rfl, htree, hwalk⟩ := h
  cases List.mem_singleton.mp htree
  have hpaths : spacingTree.walk [] = [(["base"], baseToken), (["double"], doubleToken)] := rfl
  rw [hpaths] at hwalk
  rcases List.mem_cons.mp hwalk with heq | hwalk
  · cases heq
    exact Or.inl rfl
  · cases List.mem_singleton.mp hwalk
    exact Or.inr rfl

/-- The only calculation that is written out has the characters of its text as parts. -/
lemma parts_of_writesOut_spacing {path : List String} {t : Token} {parts : List WrittenPart}
    (ht : spacingDocument.HasTokenAt path t) (h : spacingDocument.WritesOut calcSettings t parts) :
    parts = doubleParts := by
  obtain ⟨_, _, text, htext, hparts⟩ := h
  rcases eq_of_hasTokenAt_spacing ht with rfl | rfl
  · cases htext
  · cases htext
    exact Except.ok.inj (hparts.symm.trans calculationParts_double)

/-- The calculation gives no warning, but the sheet does not declare what it refers to. -/
theorem Document.references_declared_iff_spacing :
    (spacingLibrary.collections.map Collection.name).Nodup ∧ spacingLibrary.HasAliasTargets ∧
      (Scope.ofSettings spacingLibrary calcSettings).calculated? doubleFormatting "m" =
        .ok (some { value := 16.0 }) ∧
      Document.ofLibrary spacingLibrary calcSettings {} none "" "" = .ok spacingDocument ∧
      spacingDocument.cssItems calcSettings = .ok spacingSheet ∧
      ¬ ∀ path t text, spacingDocument.DeclaresToken calcSettings spacingSheet path t text →
        spacingDocument.ShowsReferences calcSettings t →
          Document.DeclaresReferences spacingSheet text := by
  have hnames : (spacingLibrary.collections.map Collection.name).Nodup := by decide
  have haliases : spacingLibrary.HasAliasTargets := by
    intro v hv modeId id hfind
    have hvalue := OrderedMap.mem_of_find? hfind
    rcases List.mem_cons.mp hv with rfl | hv
    · cases List.mem_singleton.mp hvalue
    · rw [List.mem_singleton.mp hv] at hvalue
      cases List.mem_singleton.mp hvalue
  obtain ⟨_, _, _, _, hiff⟩ := Document.references_declared_iff ofLibrary_spacing rfl hnames haliases
    cssItems_spacing rfl fun _ _ => Or.inl rfl
  have hcloses : WrittenPart.Closes doubleParts := WrittenPart.closes_map_char (by decide)
  have hclosed := hiff (fun path t _ => Settings.closing_not_mem_cssName rfl (by decide) _)
    fun path t parts ht hparts => parts_of_writesOut_spacing ht hparts ▸ hcloses
  refine ⟨hnames, haliases, calculated?_double, ofLibrary_spacing, cssItems_spacing, ?_⟩
  rw [hclosed]
  intro hdeclares
  have ht : spacingDocument.HasTokenAt ["Spacing", "double"] doubleToken :=
    ⟨"Spacing", spacingTree, ["double"], rfl, List.mem_singleton_self _,
      List.mem_cons_of_mem _ (List.mem_singleton_self _)⟩
  have hparts : spacingDocument.WritesOut calcSettings doubleToken doubleParts :=
    ⟨rfl, ⟨16.0, rfl⟩, _, rfl, calculationParts_double⟩
  have hread : referencesOf Reference.property? (WrittenPart.ownText doubleParts) =
      [.property "base".toList] := by
    decide +kernel
  have hrefers : RefersTo (WrittenPart.ownText doubleParts) "base" := by
    unfold RefersTo
    rw [hread]
    exact List.mem_singleton_self _
  obtain ⟨value, hvalue⟩ := hdeclares _ _ _ ht hparts "base" hrefers
  rcases List.mem_cons.mp hvalue with hbase | hdouble
  · exact absurd (Declaration.custom_inj hbase) (by decide)
  · exact absurd (Declaration.custom_inj (List.mem_singleton.mp hdouble)) (by decide)

end DesignTokens
