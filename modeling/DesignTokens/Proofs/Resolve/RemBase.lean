import DesignTokens.Export.Direct
import DesignTokens.Proofs.Decimal.Positive
import DesignTokens.Proofs.Faults
import DesignTokens.Proofs.Number
import DesignTokens.Token.FromLibrary

/-!
# The base of `rem` output is positive

The base of `rem` output comes from four places: the settings, which are read only with a positive
one, the directives of a description, and a variable that a directive or the settings name.  Each
place is guarded on its own, and what does not pass is left out, so that the base of a formatting is
positive whatever the library looks like (`Scope.remBase_pos_of_formattingOver`).  Numbers are thus
written without a division by zero, by every route (`remBase_pos_and_neverDividesByZero`).
-/

namespace DesignTokens

/-- A computation never ends because of a division by zero. -/
abbrev NeverDividesByZero {α : Type} (x : Except Fault α) : Prop :=
  FailsOnly (· ≠ .number .divisionByZero) x

/-! ## The sources of a base -/

/-- A positive number that is read is positive. -/
lemma Schema.pos_of_positive {j : Json} {x : Float} (h : positive j = .ok x) : 0.0 < x := by
  unfold positive at h
  obtain ⟨y, -, h⟩ := bind_eq_ok.mp h
  split_ifs at h with hpos
  · exact Except.ok.inj h ▸ hpos
  · cases h

/-- A positive number that may be missing is positive if its default is. -/
lemma Schema.pos_of_withDefault_positive {f : List (String × Json)} {keys : List String}
    {default x : Float} (hdefault : 0.0 < default)
    (h : withDefault f keys default positive = .ok x) : 0.0 < x := by
  unfold withDefault at h
  split at h
  · exact pos_of_positive h
  · exact Except.ok.inj h ▸ hdefault

/-- Settings are read with a positive base. -/
lemma Settings.remBase_pos_of_read {j : Json} {s : Settings} (h : Settings.read j = .ok s) :
    0.0 < s.remBase := by
  unfold Settings.read at h
  -- the fields before the base, the base, and the fields after it
  iterate 6 obtain ⟨_, -, h⟩ := bind_eq_ok.mp h
  obtain ⟨base, hbase, h⟩ := bind_eq_ok.mp h
  iterate 13 obtain ⟨_, -, h⟩ := bind_eq_ok.mp h
  cases h
  exact Schema.pos_of_withDefault_positive (by decide +kernel) hbase

/-- A formatting is read with a positive base. -/
lemma Formatting.remBase_pos_of_read {j : Json} {f : Formatting} (h : Formatting.read j = .ok f) :
    0.0 < f.remBase := by
  unfold Formatting.read at h
  iterate 2 obtain ⟨_, -, h⟩ := bind_eq_ok.mp h
  obtain ⟨base, hbase, h⟩ := bind_eq_ok.mp h
  iterate 4 obtain ⟨_, -, h⟩ := bind_eq_ok.mp h
  cases h
  exact Schema.pos_of_withDefault_positive (by decide +kernel) hbase

/-- The base that directives ask for, if they do, is above zero as a number. -/
def Directives.HasPositiveBase (d : Directives) : Prop :=
  ∀ base, d.remBase = some base → 0.0 < Float.ofNat base

namespace Directive

variable {cs : List Char} {d d' : Directives}

/-- A unit directive brings a positive base, or none. -/
lemma hasPositiveBase_of_withUnit (hd : d.HasPositiveBase) (h : withUnit cs d = .ok d') :
    d'.HasPositiveBase := by
  unfold withUnit at h
  split at h
  · split at h
    · unfold ofUnit at h
      split at h
      · obtain ⟨floor, hfloor, h⟩ := bind_eq_ok.mp h
        cases h
        split_ifs with hpos
        · intro base hbase
          exact Option.some.inj hbase ▸ Binary64.ofNat_pos_of_floorFloat hfloor hpos
        · exact hd
      · cases h
        exact hd
      · cases h
        exact hd
    · exact Except.ok.inj h ▸ hd
  · exact Except.ok.inj h ▸ hd

/-- A format directive leaves the base as it is. -/
lemma remBase_of_withFormat (h : withFormat cs d = .ok d') : d'.remBase = d.remBase := by
  unfold withFormat at h
  split at h
  · split at h
    · exact Except.ok.inj h ▸ rfl
    · cases h
  · exact Except.ok.inj h ▸ rfl

/-- A calculation leaves the base as it is. -/
lemma remBase_withCalculation (cs : List Char) (d : Directives) :
    (withCalculation cs d).remBase = d.remBase := by
  unfold withCalculation
  split <;> rfl

/-- A precision directive leaves the base as it is. -/
lemma remBase_of_withPrecision (h : withPrecision cs d = .ok d') : d'.remBase = d.remBase := by
  unfold withPrecision at h
  split at h
  · obtain ⟨_, -, h⟩ := bind_eq_ok.mp h
    exact Except.ok.inj h ▸ rfl
  · exact Except.ok.inj h ▸ rfl

end Directive

/-- A description asks for a positive base, or for none. -/
lemma Directives.hasPositiveBase_of_parse {description : String} {d : Directives}
    (h : Directives.parse description = .ok d) : d.HasPositiveBase := by
  unfold Directives.parse at h
  obtain ⟨unitPart, hunit, h⟩ := bind_eq_ok.mp h
  obtain ⟨formatPart, hformat, hprecision⟩ := bind_eq_ok.mp h
  have hbase : d.remBase = unitPart.remBase := by
    rw [Directive.remBase_of_withPrecision hprecision, Directive.remBase_withCalculation,
      Directive.remBase_of_withFormat hformat]
  have hnone : Directives.HasPositiveBase {} := fun _ h => absurd h.symm (Option.some_ne_none _)
  intro base hd
  exact Directive.hasPositiveBase_of_withUnit hnone hunit base (hbase ▸ hd)

/-! ## Formattings -/

namespace Formatting

variable {f f' : Formatting}

/-- Directives keep the base of a formatting positive. -/
lemma remBase_overlay_pos (hf : 0.0 < f.remBase) {d : Directives} (hd : d.HasPositiveBase) :
    0.0 < (f.overlay d).remBase := by
  show 0.0 < (d.remBase.map Float.ofNat).getD f.remBase
  cases hbase : d.remBase with
  | none => exact hf
  | some base => exact hd base hbase

/-- A description keeps the base of a formatting positive. -/
lemma remBase_pos_of_describedBy (hf : 0.0 < f.remBase) {description : String}
    (h : f.describedBy description = .ok f') : 0.0 < f'.remBase := by
  unfold describedBy at h
  obtain ⟨d, hd, h⟩ := bind_eq_ok.mp h
  cases h
  exact remBase_overlay_pos hf (Directives.hasPositiveBase_of_parse hd)

end Formatting

/-- A variable has a formatting with a positive base over one with a positive base. -/
theorem Scope.remBase_pos_of_formattingOver {s : Scope} {base f : Formatting} {v : Variable}
    (hbase : 0.0 < base.remBase) (h : s.formattingOver base v = .ok f) : 0.0 < f.remBase := by
  unfold formattingOver at h
  obtain ⟨described, hdescribed, h⟩ := bind_eq_ok.mp h
  have hpos := Formatting.remBase_pos_of_describedBy hbase hdescribed
  obtain ⟨holder, -, h⟩ := bind_eq_ok.mp h
  cases holder with
  | none => exact Except.ok.inj h ▸ hpos
  | some holder =>
    dsimp only at h
    split_ifs at h with hself
    · exact Except.ok.inj h ▸ hpos
    · obtain ⟨number, -, h⟩ := bind_eq_ok.mp h
      cases number with
      | none => exact Except.ok.inj h ▸ hpos
      | some x =>
        -- the number of another variable is taken only where it is positive itself
        cases h
        split_ifs with hx
        · exact hx
        · exact hpos

/-- A variable has a formatting with a positive base in a scope that is made from settings with a
positive base. -/
lemma Scope.remBase_pos_of_formattingOf {library : Library} {settings : Settings}
    {output : Option CalcSyntax} {v : Variable} {f : Formatting} (hbase : 0.0 < settings.remBase)
    (h : (ofSettings library settings output).formattingOf v = .ok f) : 0.0 < f.remBase := by
  have hformatting : 0.0 < settings.formatting.remBase := hbase
  exact remBase_pos_of_formattingOver hformatting h

/-! ## Numbers -/

namespace Number

/-- Division by a positive number is not refused. -/
lemma divide_of_pos {base : Float} (hbase : 0.0 < base) (x : Float) :
    divide x base = .ok (x / base) := by
  unfold divide
  rw [Binary64.beq_zero_of_pos hbase]
  exact if_neg Bool.false_ne_true

/-- A number is rounded without a division by zero. -/
lemma neverDividesByZero_rounded (places : Option ℤ) (x : Float) :
    NeverDividesByZero (rounded places x) := by
  unfold rounded
  split
  · dsimp only
    split_ifs
    · exact .ok _
    · exact .error (by decide)
    · exact .ok _
  · exact .ok _

/-- A number is written in a unit without a division by zero if the base is positive. -/
lemma neverDividesByZero_withUnit {base : Float} (hbase : 0.0 < base) (unit : CssUnit)
    (places : Option ℤ) (x : Float) : NeverDividesByZero (withUnit unit base places x) := by
  have hunit : NeverDividesByZero (inUnit unit base x) := by
    unfold inUnit
    rw [divide_of_pos hbase]
    split_ifs
    · exact .ok _
    · exact .ok _
  rw [withUnit_eq]
  exact (hunit.bind (neverDividesByZero_rounded places)).map

end Number

/-- A formatting with a positive base writes numbers in any unit without a division by zero. -/
lemma Formatting.neverDividesByZero_number {f : Formatting} (hf : 0.0 < f.remBase) (unit : CssUnit)
    (x : Float) : NeverDividesByZero ({ f with unit }.number x) :=
  Number.neverDividesByZero_withUnit hf unit f.precision x

/-- No description divides by zero. -/
lemma Directives.neverDividesByZero_parse (description : String) :
    NeverDividesByZero (Directives.parse description) := by
  refine (failsOnly_parse description).mono fun fault hfault heq => ?_
  rw [heq] at hfault
  exact absurd hfault (by decide)

lemma Formatting.neverDividesByZero_describedBy (f : Formatting) (description : String) :
    NeverDividesByZero (f.describedBy description) :=
  (Directives.neverDividesByZero_parse description).bind fun _ => .ok _

/-! ## Variables -/

namespace Scope

variable (s : Scope)

/-- A path that is looked up may be ambiguous, which is no division by zero. -/
lemma neverDividesByZero_byPath (path : String) : NeverDividesByZero (s.byPath path) := by
  unfold Library.byPath
  split
  · exact .ok _
  · split
    · exact .ok _
    · exact .ok _
    · exact .error nofun

lemma neverDividesByZero_unitOf (v : Variable) : NeverDividesByZero (unitOf v) :=
  (Directives.neverDividesByZero_parse v.description).bind fun _ => .ok _

/-- The number of a variable is found with its unit without a division by zero. -/
lemma neverDividesByZero_numberWithUnit (v : Variable) (modeId : String) :
    NeverDividesByZero (s.numberWithUnit v modeId) :=
  (neverDividesByZero_unitOf v).bind fun _ => .ok _

/-- The formatting of a variable is found without a division by zero. -/
lemma neverDividesByZero_formattingOver (base : Formatting) (v : Variable) :
    NeverDividesByZero (s.formattingOver base v) := by
  have hholder : ∀ f, NeverDividesByZero (s.remBaseVariable? f) := by
    intro f
    unfold remBaseVariable?
    split
    · exact (s.neverDividesByZero_byPath _).bind fun _ => .ok _
    · exact .ok _
  have hnumber : ∀ holder, NeverDividesByZero (s.defaultNumber? holder) := fun holder =>
    (s.neverDividesByZero_numberWithUnit holder _).bind fun _ => .ok _
  refine (base.neverDividesByZero_describedBy v.description).bind fun f => ?_
  refine (hholder f).bind fun holder => ?_
  cases holder with
  | none => exact .ok f
  | some holder =>
    dsimp only
    split_ifs
    · exact .ok f
    · refine (hnumber holder).bind fun number => ?_
      cases number with
      | none => exact .ok f
      | some x => exact .ok _

/-- A calculation is evaluated without a division by zero that would end the run. -/
lemma neverDividesByZero_calculated? (f : Formatting) (modeId : String) :
    NeverDividesByZero (s.calculated? f modeId) := by
  have hlookUp : ∀ found r, NeverDividesByZero (s.lookUp modeId found r) := by
    intro found r
    have hentry : NeverDividesByZero (s.byReference r) := by
      cases r with
      | path raw => exact s.neverDividesByZero_byPath _
      | property raw => exact .ok _
    unfold lookUp
    split_ifs
    · exact .ok _
    · refine hentry.bind fun entry => ?_
      cases entry with
      | none => exact .ok _
      | some entry =>
        dsimp only
        unfold addEntry
        dsimp only
        split_ifs
        · exact .ok _
        · refine (s.neverDividesByZero_numberWithUnit entry.item modeId).bind fun number => ?_
          split <;> exact .ok _
  have hcalculate : NeverDividesByZero (s.calculate f modeId) := by
    unfold calculate
    split
    · exact .ok _
    · exact (FailsOnly.foldlM hlookUp _ _).bind fun _ => .ok _
  exact hcalculate.bind fun _ => .ok _

variable {s} {f : Formatting} {value : VariableValue}

/-- A value is written without a division by zero if it is no color whose conversion divides by
zero. -/
lemma neverDividesByZero_directText (hf : 0.0 < f.remBase)
    (hcolor : ∀ c, value = .color c → ∀ format, NeverDividesByZero (c.render format))
    (modeId : String) (type : VariableType) (origin : Option String) :
    NeverDividesByZero (s.directText modeId type f origin value) := by
  cases value with
  | aliasOf id => exact .ok _
  | text t => exact .ok _
  | color c =>
    unfold directText typedText
    dsimp only
    split_ifs
    · exact hcolor c rfl f.colorFormat
    · exact hcolor c rfl .hex
  | number x =>
    unfold directText typedText
    dsimp only
    split_ifs
    · exact Formatting.neverDividesByZero_number hf f.unit x
    · exact .ok _
  | bool b =>
    unfold directText typedText
    dsimp only
    split_ifs
    · exact .ok _
    · exact .ok _
    · exact .ok _

/-- A value with a calculation is written without a division by zero on the same condition. -/
lemma neverDividesByZero_valueText (hf : 0.0 < f.remBase)
    (hcolor : ∀ c, value = .color c → ∀ format, NeverDividesByZero (c.render format))
    (modeId : String) (type : VariableType) (origin : Option String) :
    NeverDividesByZero (s.valueText modeId type f origin value) := by
  have hdirect := s.neverDividesByZero_directText hf hcolor modeId type origin
  have hcalculation : ∀ text, NeverDividesByZero (s.calculationText? f text modeId) := by
    intro text
    unfold calculationText?
    split
    · exact .ok _
    · refine (s.neverDividesByZero_calculated? f modeId).bind fun q => ?_
      cases q with
      | none => exact .ok _
      | some q => exact (Formatting.neverDividesByZero_number hf q.unit q.value).bind fun _ => .ok _
  unfold valueText
  split
  · refine (hcalculation _).bind fun rendered => ?_
    cases rendered with
    | none => exact hdirect
    | some rendered => exact .ok _
  · exact hdirect

/-- The text of a variable is written without a division by zero under settings with a positive
base, on the same condition. -/
lemma neverDividesByZero_variableText? (library : Library) {settings : Settings}
    (hbase : 0.0 < settings.remBase) (output : Option CalcSyntax) {v : Variable} {modeId : String}
    (hcolor : ∀ c, OrderedMap.find? modeId v.values = some (.color c) →
      ∀ format, NeverDividesByZero (c.render format)) :
    NeverDividesByZero ((ofSettings library settings output).variableText? modeId
      ((ofSettings library settings output).formattingOf v) v) := by
  unfold variableText?
  cases hvalue : OrderedMap.find? modeId v.values with
  | none => exact .ok none
  | some value =>
    refine FailsOnly.bind_ok (neverDividesByZero_formattingOver _ _ v) fun f hf => ?_
    have hpos : 0.0 < f.remBase := remBase_pos_of_formattingOf hbase hf
    refine (neverDividesByZero_valueText hpos (fun c hc => hcolor c ?_) _ _ _).bind fun _ => .ok _
    rw [hvalue, hc]

end Scope

/-! ## Text styles -/

/-- The properties of a text style are written without a division by zero if the base is
positive. -/
lemma TextStyle.neverDividesByZero_properties {f : Formatting} (hf : 0.0 < f.remBase)
    (style : TextStyle) : NeverDividesByZero (style.properties f) := by
  have hnumber : ∀ x, NeverDividesByZero (f.number x) :=
    Formatting.neverDividesByZero_number hf f.unit
  have hheight : NeverDividesByZero (style.lineHeightText? f) := by
    unfold lineHeightText?
    split
    · exact .ok _
    · exact (hnumber _).map
    · exact (Number.neverDividesByZero_rounded _ _).map
  have hspacing : NeverDividesByZero (style.letterSpacingText f) := by
    unfold letterSpacingText
    split_ifs
    · exact (Number.neverDividesByZero_rounded _ _).map
    · exact hnumber _
  exact (hnumber _).bind fun _ => hheight.bind fun _ => hspacing.bind fun _ => .ok _

/-- The token of a text style is made without a division by zero. -/
lemma TextStyle.neverDividesByZero_token (style : TextStyle) : NeverDividesByZero style.token := by
  have hdefault : 0.0 < ({} : Formatting).remBase := by decide +kernel
  unfold token
  refine (Formatting.neverDividesByZero_describedBy _ _).bind_ok fun f hf => ?_
  have hpos := Formatting.remBase_pos_of_describedBy hdefault hf
  refine (style.neverDividesByZero_properties hpos).bind fun properties => ?_
  dsimp only
  split_ifs
  · exact .error (by decide)
  · exact .ok _

/-! ## All routes -/

/-- Under settings the base of every formatting is positive, and so no number that is written is
divided by zero. -/
structure Settings.KeepsBasePositive (settings : Settings) : Prop where
  /-- The formatting of a description over one with a positive base. -/
  described : ∀ (base f : Formatting) description, 0.0 < base.remBase →
    base.describedBy description = .ok f → 0.0 < f.remBase
  /-- The formatting of a variable in any scope, whatever a variable for the base comes to. -/
  overSettings : ∀ (s : Scope) v f, s.formattingOver settings.formatting v = .ok f →
    0.0 < f.remBase
  /-- The formatting of a variable in a scope that is made from the settings. -/
  ofVariable : ∀ library output v f,
    (Scope.ofSettings library settings output).formattingOf v = .ok f → 0.0 < f.remBase
  /-- The formatting of a style. -/
  ofStyle : ∀ styles names description f,
    StyleScope.formatting ⟨styles, settings, names⟩ description = .ok f → 0.0 < f.remBase
  /-- The text of a variable.  A color is converted without a base, so that it is only asked not to
  be divided by zero itself. -/
  variableText : ∀ library output (v : Variable) modeId,
    (∀ c, OrderedMap.find? modeId v.values = some (.color c) →
      ∀ format, NeverDividesByZero (c.render format)) →
    NeverDividesByZero ((Scope.ofSettings library settings output).variableText? modeId
      ((Scope.ofSettings library settings output).formattingOf v) v)
  /-- The properties of a text style. -/
  textProperties : ∀ styles names style,
    NeverDividesByZero (StyleScope.textProperties ⟨styles, settings, names⟩ style)
  /-- The token of a text style. -/
  textToken : ∀ style : TextStyle, NeverDividesByZero style.token
  /-- The numbers of a document. -/
  tokenNumber : ∀ document language unit x,
    NeverDividesByZero (Renderer.number ⟨document, settings, language⟩ unit x)

/-- Settings and formattings are read with a positive base only, and settings with a positive base
keep it positive in every formatting. -/
theorem remBase_pos_and_neverDividesByZero (settings : Settings) (hbase : 0.0 < settings.remBase) :
    (∀ j read, Settings.read j = .ok read → 0.0 < read.remBase) ∧
    (∀ j read, Formatting.read j = .ok read → 0.0 < read.remBase) ∧
    settings.KeepsBasePositive := by
  refine ⟨fun _ _ => Settings.remBase_pos_of_read, fun _ _ => Formatting.remBase_pos_of_read, ?_⟩
  have hformatting : 0.0 < settings.formatting.remBase := hbase
  exact {
    described := fun _ _ _ hpos => Formatting.remBase_pos_of_describedBy hpos
    overSettings := fun _ _ _ => Scope.remBase_pos_of_formattingOver hformatting
    ofVariable := fun _ _ _ _ => Scope.remBase_pos_of_formattingOf hbase
    ofStyle := fun _ _ _ _ => Formatting.remBase_pos_of_describedBy hformatting
    variableText := fun library output _ _ =>
      Scope.neverDividesByZero_variableText? library hbase output
    textProperties := fun _ _ style =>
      (Formatting.neverDividesByZero_describedBy _ _).bind_ok fun _ hf =>
        style.neverDividesByZero_properties (Formatting.remBase_pos_of_describedBy hformatting hf)
    textToken := TextStyle.neverDividesByZero_token
    tokenNumber := fun _ _ unit x =>
      Number.neverDividesByZero_withUnit hbase unit settings.precision x }

/-! ### A negative variable for the base -/

/-- A collection with one mode. -/
def sizeCollection : Collection :=
  { id := "sizes", name := "Sizes", modes := [⟨"1:0", "Value"⟩], defaultModeId := "1:0" }

/-- A number below zero. -/
def negativeBase : Variable :=
  { id := "base", name := "base", type := .number, values := [("1:0", .number (-4.0))],
    collectionId := "sizes" }

/-- A number that asks for `rem` output with the negative one as its base. -/
def negativelyBased : Variable :=
  { id := "body", name := "body", type := .number, values := [("1:0", .number 10.0)],
    collectionId := "sizes", description := "unit: rem('Sizes/base')" }

/-- The library of the two numbers. -/
def negativeBaseLibrary : Library := ⟨[negativeBase, negativelyBased], [sizeCollection]⟩

/-- The negative base is left out, and that of the settings takes its place. -/
theorem remBase_pos_of_negativeBase :
    0.0 < ({ remBase := 0.5 } : Settings).remBase ∧
      ∃ f, (Scope.ofSettings negativeBaseLibrary { remBase := 0.5 }).formattingOf negativelyBased =
        .ok f ∧ 0.0 < f.remBase := by
  have hbase : 0.0 < ({ remBase := 0.5 } : Settings).remBase := by decide +kernel
  have hformatting :
      (Scope.ofSettings negativeBaseLibrary { remBase := 0.5 }).formattingOf negativelyBased =
        .ok { unit := .rem, remBase := 0.5, remBasePath := some "Sizes/base" } := rfl
  exact ⟨hbase, _, hformatting, (remBase_pos_and_neverDividesByZero _ hbase).2.2.ofVariable
    negativeBaseLibrary none negativelyBased _ hformatting⟩

end DesignTokens
