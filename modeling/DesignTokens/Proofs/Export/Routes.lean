import DesignTokens.Proofs.Export.Sheets
import DesignTokens.Proofs.Number
import DesignTokens.Proofs.Settings
import DesignTokens.Proofs.Token.Places

/-!
# The two routes of an export

A number of a library is declared in a flat stylesheet on two routes: with a document between, and
directly.  The direct route formats it after the settings overlaid with the directives of the
variable.  The document keeps the unit of the directives, unless it is pixels, and nothing of the
base of `rem` output and of the precision, so that the sheet of the document takes these from the
settings.  The two declared texts are therefore equal exactly if what is lost makes no difference:
pixels are asked for only where the settings ask for them, and the numeral under the settings is the
numeral under the directives.
-/

namespace DesignTokens

/-- A numeric variable of a collection with one mode, the default one, where it has a plain finite
number. -/
structure Variable.IsNumberIn (v : Variable) (c : Collection) (x : Float) : Prop where
  modes : ∃ mode : Mode, c.modes = [mode] ∧ mode.id = c.defaultModeId
  type : v.type = .number
  value : OrderedMap.find? c.defaultModeId v.values = some (.number x)
  finite : isFiniteNumber x = true

/-- The directives of a description without a calculation and without a variable that holds the base
of `rem` output. -/
structure Directives.AreOf (d : Directives) (description : String) : Prop where
  parsed : Directives.parse description = .ok d
  expression : d.expression = none
  remBasePath : d.remBasePath = none

/-- The sheet of a document declares the token of a variable with a text. -/
def Document.DeclaresVariable (d : Document) (library : Library) (s : Settings) (c : Collection)
    (v : Variable) (items : List CssItem) (text : String) : Prop :=
  ∃ token tree value, (Scope.ofSettings library s).token? c v = .ok (some token) ∧
    (c.name, tree) ∈ d.selected s ∧ (nameSegments v.name, token) ∈ TokenTree.walk [] tree ∧
    Renderer.valueOf { document := d, settings := s } token = .ok value ∧ value.flatText = text ∧
    Declares items
      (Renderer.cssName { document := d, settings := s } (c.name :: nameSegments v.name)) text

/-- The sheet of a direct export declares a variable with a text. -/
def DirectExport.DeclaresVariable (e : DirectExport) (c : Collection) (v : Variable)
    (items : List CssItem) (text : String) : Prop :=
  (e.scope .css).variableText? c.flatModeId ((e.scope .css).formattingOf v) v = .ok (some text) ∧
    Declares items ((e.scope .css).cssName v) text

namespace Variable.IsNumberIn

variable {v : Variable} {c : Collection} {x : Float}

/-- The one mode of the collection stands for it. -/
lemma flatModeId_eq (h : v.IsNumberIn c x) : c.flatModeId = c.defaultModeId := by
  obtain ⟨mode, hmodes, hdefault⟩ := h.modes
  unfold Collection.flatModeId
  rw [hmodes, List.find?_cons]
  cases isDefaultName mode.name with
  | true => exact hdefault
  | false => rfl

end Variable.IsNumberIn

/-! ## The route by a document -/

section document

variable {library : Library} {s : Settings} {c : Collection} {v : Variable} {x : Float}
  {directives : Directives}

/-- Settings and directives without a calculation have none together. -/
lemma calculation?_overlay (hdirectives : directives.AreOf v.description) :
    (s.formatting.overlay directives).calculation? = none := by
  have hexpression : (s.formatting.overlay directives).expression = none := by
    show (directives.expression <|> none) = none
    rw [hdirectives.expression]
    rfl
  unfold Formatting.calculation?
  rw [hexpression]
  rfl

/-- The token of a plain number. -/
def numberToken (v : Variable) (directives : Directives) (x : Float) : Token :=
  { type := .number
    value := .flat (.literal (.number x))
    description := if v.description = "" then none else some v.description
    origin := some (Scope.originOf v directives) }

/-- A variable with a plain number has the token of the number. -/
lemma token?_eq (hnumber : v.IsNumberIn c x) (hdirectives : directives.AreOf v.description) :
    (Scope.ofSettings library s).token? c v = .ok (some (numberToken v directives x)) := by
  obtain ⟨mode, hmodes, _⟩ := hnumber.modes
  have hsingle : c.modes.length ≤ 1 := by
    rw [hmodes]
    exact Nat.le_refl 1
  have hcalculation : (Scope.ofSettings library s).calculatedLiteral? v.type
      ((Scope.ofSettings library s).base.overlay directives) c.defaultModeId = .ok none := by
    unfold Scope.calculatedLiteral?
    refine if_neg fun hboth => ?_
    have hnone : ((Scope.ofSettings library s).base.overlay directives).calculation? = none :=
      calculation?_overlay hdirectives
    rw [hnone] at hboth
    exact Bool.noConfusion hboth.2
  have hflat : (Scope.ofSettings library s).flatValue v
      ((Scope.ofSettings library s).base.overlay directives) c.defaultModeId (.number x) =
        .ok (.literal (.number x)) := by
    unfold Scope.flatValue
    dsimp only
    rw [bind_of_ok hcalculation]
    dsimp only
    unfold Scope.literalOf
    rw [hnumber.type]
    rfl
  have hvalue : (Scope.ofSettings library s).tokenValue? c v
      ((Scope.ofSettings library s).base.overlay directives) =
        .ok (some (.flat (.literal (.number x)))) := by
    unfold Scope.tokenValue?
    rw [if_pos hsingle, hnumber.value]
    dsimp only
    rw [hflat]
    rfl
  unfold Scope.token?
  rw [bind_of_ok hdirectives.parsed, bind_of_ok hvalue]
  dsimp only
  rw [hnumber.type]
  rfl

/-- The unit in which the sheet of a document shows a number. -/
def documentUnit (s : Settings) (directives : Directives) : CssUnit :=
  (directives.unit.filter (· ≠ .px)).getD s.unit

/-- The token of a number is rendered after the settings, in the unit that it keeps. -/
lemma valueOf_numberToken (d : Document) (hdirectives : directives.AreOf v.description) :
    Renderer.valueOf { document := d, settings := s } (numberToken v directives x) =
      (Number.withUnit (documentUnit s directives) s.remBase s.precision x).map .single := by
  have hunit : Renderer.unitOf { document := d, settings := s } (numberToken v directives x) =
      documentUnit s directives := by
    unfold Renderer.unitOf documentUnit numberToken Scope.originOf
    dsimp only [Option.bind_some]
    cases directives.unit.filter (· ≠ .px) with
    | none => rfl
    | some unit =>
      rw [Option.map_some, Option.bind_some, CssUnit.ofName?_name]
  have hcalculation : Renderer.calculation? { document := d, settings := s }
      (numberToken v directives x) = none := by
    unfold Renderer.calculation? numberToken Scope.originOf
    dsimp only [Option.bind_some]
    rw [hdirectives.expression]
    exact ite_self none
  show ((Renderer.literalText { document := d, settings := s } (numberToken v directives x)
    (.number x)).map RenderedValue.single) = _
  unfold Renderer.literalText
  dsimp only
  rw [hcalculation]
  dsimp only
  rw [hunit]
  rfl

end document

/-! ## The direct route -/

section direct

variable {e : DirectExport} {c : Collection} {v : Variable} {x : Float} {directives : Directives}

/-- The formatting of a variable whose base of `rem` output is held by no variable. -/
lemma formattingOf_eq (hdirectives : directives.AreOf v.description)
    (hbase : e.settings.remBaseVariable.filter (· ≠ "") = none) :
    (e.scope .css).formattingOf v = .ok (e.settings.formatting.overlay directives) := by
  have hdescribed : (e.scope .css).base.describedBy v.description =
      .ok (e.settings.formatting.overlay directives) := by
    unfold Formatting.describedBy
    rw [bind_of_ok hdirectives.parsed]
    rfl
  have hpath : (e.settings.formatting.overlay directives).remBasePath = none := by
    show (directives.remBasePath <|> none) = none
    rw [hdirectives.remBasePath]
    rfl
  have hholder : (e.scope .css).remBaseVariable? (e.settings.formatting.overlay directives) =
      .ok none := by
    unfold Scope.remBaseVariable?
    rw [hpath]
    show Except.ok ((e.settings.remBaseVariable.filter (· ≠ "")).bind (e.scope .css).byId?) = _
    rw [hbase]
    rfl
  unfold Scope.formattingOf Scope.formattingOver
  rw [bind_of_ok hdescribed, bind_of_ok hholder]
  rfl

/-- A variable with a plain number is shown after the settings overlaid with its directives. -/
lemma variableText?_eq (hnumber : v.IsNumberIn c x) (hdirectives : directives.AreOf v.description)
    (hbase : e.settings.remBaseVariable.filter (· ≠ "") = none) :
    (e.scope .css).variableText? c.flatModeId ((e.scope .css).formattingOf v) v =
      (Number.withUnit (directives.unit.getD e.settings.unit)
        ((directives.remBase.map Float.ofNat).getD e.settings.remBase)
        (directives.precision.map Int.ofNat <|> e.settings.precision) x).map some := by
  have hcalculation : (if v.type = .number then
      (e.settings.formatting.overlay directives).calculation? else none) = none := by
    rw [calculation?_overlay hdirectives]
    exact ite_self none
  have htext : (e.scope .css).valueText c.defaultModeId v.type
      (e.settings.formatting.overlay directives) (some v.id) (.number x) =
        (e.settings.formatting.overlay directives).number x := by
    unfold Scope.valueText
    rw [hcalculation]
    dsimp only
    unfold Scope.directText Scope.typedText
    exact if_pos ⟨hnumber.type, hnumber.finite⟩
  unfold Scope.variableText?
  rw [hnumber.flatModeId_eq, hnumber.value]
  dsimp only
  rw [bind_of_ok (formattingOf_eq hdirectives hbase), htext]
  show (do
    let text ← (e.settings.formatting.overlay directives).number x
    return some text) = ((e.settings.formatting.overlay directives).number x).map some
  cases (e.settings.formatting.overlay directives).number x <;> rfl

end direct

/-! ## Both routes -/

/-- The text that the sheet of a document declares for a plain number. -/
lemma Document.DeclaresVariable.text_eq {d : Document} {library : Library} {s : Settings}
    {c : Collection} {v : Variable} {x : Float} {directives : Directives} {items : List CssItem}
    {text : String} (h : d.DeclaresVariable library s c v items text)
    (hnumber : v.IsNumberIn c x) (hdirectives : directives.AreOf v.description) :
    Number.withUnit (documentUnit s directives) s.remBase s.precision x = .ok text := by
  obtain ⟨token, tree, value, htoken, _, _, hvalue, htext, _⟩ := h
  rw [token?_eq hnumber hdirectives] at htoken
  cases htoken
  rw [valueOf_numberToken d hdirectives] at hvalue
  obtain ⟨rendered, hrendered, heq⟩ := map_eq_ok.mp hvalue
  rw [hrendered, ← htext, ← heq]
  rfl

/-- The two texts that are declared for a plain number are equal exactly if the unit of pixels is
not lost and the numerals under the settings and under the directives are the same. -/
lemma declared_eq_iff {s : Settings} {directives : Directives} {x : Float} {text text' : String}
    (hdocument : Number.withUnit (documentUnit s directives) s.remBase s.precision x = .ok text)
    (hdirect : Number.withUnit (directives.unit.getD s.unit)
      ((directives.remBase.map Float.ofNat).getD s.remBase)
      (directives.precision.map Int.ofNat <|> s.precision) x = .ok text') :
    text = text' ↔ (directives.unit = some .px → s.unit = .px) ∧
      Number.numeral (directives.unit.getD s.unit) s.remBase s.precision x =
        Number.numeral (directives.unit.getD s.unit)
          ((directives.remBase.map Float.ofNat).getD s.remBase)
          (directives.precision.map Int.ofNat <|> s.precision) x := by
  by_cases hlost : directives.unit = some .px ∧ s.unit ≠ .px
  · obtain ⟨hpx, hother⟩ := hlost
    have hunit : documentUnit s directives = s.unit := by
      unfold documentUnit
      rw [hpx]
      rfl
    rw [hunit] at hdocument
    rw [hpx] at hdirect
    constructor
    · intro heq
      exact absurd heq (Number.withUnit_px_ne hother hdocument hdirect)
    · rintro ⟨hkept, _⟩
      exact absurd (hkept hpx) hother
  · have hkept : directives.unit = some .px → s.unit = .px := by
      intro hpx
      by_contra hother
      exact hlost ⟨hpx, hother⟩
    have hunit : documentUnit s directives = directives.unit.getD s.unit := by
      unfold documentUnit
      cases hdirective : directives.unit with
      | none => rfl
      | some unit =>
        by_cases hpx : unit = .px
        · rw [hpx, hkept (hdirective.trans (congrArg some hpx))]
          rfl
        · have hfilter : (some unit).filter (· ≠ CssUnit.px) = some unit :=
            Option.filter_some_pos (decide_eq_true hpx)
          rw [hfilter]
    rw [hunit] at hdocument
    rw [Number.withUnit_eq_iff hdocument hdirect]
    exact (and_iff_right hkept).symm

/-- The sheets of the two routes declare a number that holds its place, and the two texts are equal
exactly if the directives ask for pixels only where the settings do, and the numeral under the base
and the precision of the settings is the one under those of the directives. -/
theorem flat_routes_agree_iff {library : Library} {s : Settings} {styles styles' : Option Styles}
    {sourceFile generatedAt sourceFile' generatedAt' : String} {d : Document}
    {documentItems directItems : List CssItem}
    (hdocument : Document.ofLibrary library s s.documentOptions styles sourceFile generatedAt =
      .ok d)
    (hdocumentItems : d.cssItems s = .ok documentItems)
    (hdirectItems : DirectExport.cssItems
      { library, settings := s, sourceFile := sourceFile', styles := styles'
        generatedAt := generatedAt' } = .ok directItems)
    (hflat : s.modeSelectors = false) (hbase : s.remBaseVariable.filter (· ≠ "") = none)
    {c : Collection} {v : Variable} {x : Float} {directives : Directives}
    (hplace : HoldsPlace library s c v) (hnumber : v.IsNumberIn c x)
    (hdirectives : directives.AreOf v.description) :
    ∃ text text', d.DeclaresVariable library s c v documentItems text ∧
      DirectExport.DeclaresVariable
        { library, settings := s, sourceFile := sourceFile', styles := styles'
          generatedAt := generatedAt' } c v directItems text' ∧
      (text = text' ↔ (directives.unit = some .px → s.unit = .px) ∧
        Number.numeral (directives.unit.getD s.unit) s.remBase s.precision x =
          Number.numeral (directives.unit.getD s.unit)
            ((directives.remBase.map Float.ofNat).getD s.remBase)
            (directives.precision.map Int.ofNat <|> s.precision) x) := by
  have htoken := @token?_eq library s c v x directives hnumber hdirectives
  obtain ⟨tree, htree, hwalk⟩ := hplace.mem_walk hdocument htoken
  obtain ⟨value, hvalue, hdeclared⟩ := Document.declares_cssItems hdocumentItems hflat htree hwalk
  have hshown : d.DeclaresVariable library s c v documentItems value.flatText :=
    ⟨_, tree, value, htoken, htree, hwalk, hvalue, rfl, hdeclared⟩
  obtain ⟨before, after, hselected, _⟩ := hplace.selected
  obtain ⟨members, rest, hmembers, _⟩ := hplace.member
  have hc : c ∈ Collection.select s.selection library.collections := by
    rw [hselected]
    exact List.mem_append_right _ List.mem_cons_self
  have hv := (NaturalOrder.mem_sortBy hmembers).mp (List.mem_append_right _ List.mem_cons_self)
  obtain ⟨text?, htext, hlisted⟩ := DirectExport.declares_cssItems hdirectItems hflat hc
    (List.mem_filter.mp hv).1 (beq_iff_eq.mp (List.mem_filter.mp hv).2)
  have hdirect := htext
  rw [variableText?_eq hnumber hdirectives hbase] at hdirect
  obtain ⟨text', htext', hsome⟩ := map_eq_ok.mp hdirect
  rw [← hsome] at htext
  exact ⟨value.flatText, text', hshown, ⟨htext, hlisted text' hsome.symm⟩,
    declared_eq_iff (hshown.text_eq hnumber hdirectives) htext'⟩

/-! ### A number with a base of its own -/

/-- A collection with one mode. -/
def scaleCollection : Collection :=
  { id := "scale", name := "Scale", modes := [⟨"1:0", "Value"⟩], defaultModeId := "1:0" }

/-- A number that asks for `rem` units of a base of its own. -/
def bodySize : Variable :=
  { id := "body", name := "size/body", type := .number, values := [("1:0", .number 10.0)],
    collectionId := "scale", description := "unit: rem(18)" }

/-- The library of the collection and the variable. -/
def scaleLibrary : Library := ⟨[bodySize], [scaleCollection]⟩

/-- The directives of the variable. -/
def bodyDirectives : Directives := { unit := some .rem, remBase := some 18 }

/-- The tree of the collection. -/
def scaleTree : TokenTree :=
  [("size", .group [("body", .token (numberToken bodySize bodyDirectives 10.0))])]

/-- The document of the library. -/
def scaleDocument : Document :=
  { collections := [("Scale", scaleTree)], sourceFile := "scale.fig",
    generatedAt := fixedTimestamp }

/-- The sheet of the collection, with a name and a text for the variable. -/
def scaleSheet (name text : String) : List CssItem :=
  [Layout.flat {} [⟨"Scale", [.custom name text]⟩] []]

/-- The variable has a plain number. -/
lemma isNumberIn_bodySize : bodySize.IsNumberIn scaleCollection 10.0 :=
  ⟨⟨⟨"1:0", "Value"⟩, rfl, rfl⟩, rfl, rfl, rfl⟩

/-- The directives are those of the variable. -/
lemma areOf_bodyDirectives : bodyDirectives.AreOf bodySize.description :=
  ⟨rfl, rfl, rfl⟩

/-- The only variable is the only member of the only collection. -/
lemma members_scaleCollection : scaleCollection.members Variable.name [bodySize] = .ok [bodySize] :=
  NaturalOrder.sortBy_singleton rfl

/-- The only variable holds its place. -/
lemma holdsPlace_bodySize : HoldsPlace scaleLibrary {} scaleCollection bodySize :=
  ⟨⟨[], [], rfl, nofun⟩, Or.inl rfl, [], [], members_scaleCollection, nofun⟩

/-- The document is the one of the library. -/
lemma ofLibrary_scale : Document.ofLibrary scaleLibrary {} ({} : Settings).documentOptions none
    "scale.fig" "" = .ok scaleDocument := by
  have htree : (Scope.ofSettings scaleLibrary {}).tree scaleCollection = .ok scaleTree := by
    unfold Scope.tree Scope.addToken
    refine (bind_of_ok members_scaleCollection _).trans ?_
    rw [List.foldlM_cons, bind_of_ok (token?_eq isNumberIn_bodySize areOf_bodyDirectives)]
    rfl
  exact Document.ofLibrary_one rfl htree

/-- The sheet of the document shows the number in units of the base of the settings. -/
lemma cssItems_scaleDocument :
    scaleDocument.cssItems {} = .ok (scaleSheet "scale-size-body" "0.625rem") := by
  have htokens : Renderer.tokens { document := scaleDocument, settings := {} } "Scale" scaleTree =
      .ok [⟨"scale-size-body", .single "0.625rem"⟩] := by
    unfold Renderer.tokens
    exact (bind_of_ok (mapM_singleton rfl) _).trans (NaturalOrder.sortBy_singleton rfl)
  have hcollections : Renderer.collections { document := scaleDocument, settings := {} } =
      .ok [("Scale", [⟨"scale-size-body", .single "0.625rem"⟩])] :=
    mapM_singleton (bind_of_ok htokens _)
  show Document.propertyItems { document := scaleDocument, settings := {} } [] = _
  unfold Document.propertyItems
  exact bind_of_ok hcollections _

/-- The direct export of the library. -/
def scaleExport : DirectExport := { library := scaleLibrary, settings := {} }

/-- The sheet of the direct export shows the number in units of its own base. -/
lemma cssItems_scaleExport : scaleExport.cssItems = .ok (scaleSheet "size-body" "0.5556rem") := by
  have hmembers : scaleExport.members scaleCollection = .ok [bodySize] :=
    NaturalOrder.sortBy_singleton rfl
  have hsection : scaleExport.flatSection scaleCollection =
      .ok ⟨"Scale", [.custom "size-body" "0.5556rem"]⟩ :=
    DirectExport.flatSection_singleton hmembers rfl rfl
  exact DirectExport.cssItems_flat rfl rfl (mapM_singleton hsection)

/-- The two sheets declare the number with different texts, since the document has lost its base. -/
theorem flat_routes_agree_iff_scale :
    HoldsPlace scaleLibrary {} scaleCollection bodySize ∧
      bodySize.IsNumberIn scaleCollection 10.0 ∧ bodyDirectives.AreOf bodySize.description ∧
      ∃ text text', scaleDocument.DeclaresVariable scaleLibrary {} scaleCollection bodySize
          (scaleSheet "scale-size-body" "0.625rem") text ∧
        scaleExport.DeclaresVariable scaleCollection bodySize
          (scaleSheet "size-body" "0.5556rem") text' ∧
        text ≠ text' := by
  obtain ⟨text, text', hdocument, hdirect, hagree⟩ :=
    flat_routes_agree_iff ofLibrary_scale cssItems_scaleDocument cssItems_scaleExport rfl rfl
      holdsPlace_bodySize isNumberIn_bodySize areOf_bodyDirectives
  refine ⟨holdsPlace_bodySize, isNumberIn_bodySize, areOf_bodyDirectives, text, text', hdocument,
    hdirect, fun heq => ?_⟩
  have hnumeral : (Except.ok "0.625" : Except Fault String) = .ok "0.5556" := (hagree.mp heq).2
  exact absurd (Except.ok.inj hnumeral) (by decide)

end DesignTokens
