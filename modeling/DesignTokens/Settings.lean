import DesignTokens.Formatting
import DesignTokens.Name.Format
import DesignTokens.Schema

/-!
# Settings

The options of an export: how names and values are written and how the output is laid out. Settings
are read from plain data with underscored keys, and written back as plain data, either in full or
leaving out what has its default value.
-/

namespace DesignTokens

/-- The kinds of styles. -/
inductive StyleKind where
  | paint
  | text
  | effect
  | grid
deriving DecidableEq, Repr

/-- All kinds of styles. -/
def StyleKind.all : List StyleKind := [paint, text, effect, grid]

/-- The name of a kind of styles. -/
def StyleKind.name : StyleKind → String
  | paint => "paint"
  | text => "text"
  | effect => "effect"
  | grid => "grid"

/-- The kind of styles with a name. -/
def StyleKind.ofName? (s : String) : Option StyleKind :=
  StyleKind.all.find? (·.name == s)

/-- The ways to write styles: as variables, or as classes or mixins. -/
inductive StyleOutput where
  | vars
  | classes
deriving DecidableEq, Repr

/-- The name of a way to write styles. -/
def StyleOutput.name : StyleOutput → String
  | vars => "variables"
  | classes => "classes"

/-- The way to write styles with a name. -/
def StyleOutput.ofName? (s : String) : Option StyleOutput :=
  [vars, classes].find? (·.name == s)

/-- The kinds of exported files. -/
inductive ExportType where
  | css
  | scss
  | json
  | typescript
deriving DecidableEq, Repr

/-- All kinds of exported files. -/
def ExportType.all : List ExportType := [css, scss, json, typescript]

/-- The name of a kind of exported files. -/
def ExportType.name : ExportType → String
  | css => "css"
  | scss => "scss"
  | json => "json"
  | typescript => "typescript"

/-- The kind of exported files with a name. -/
def ExportType.ofName? (s : String) : Option ExportType :=
  ExportType.all.find? (·.name == s)

/-- The options of an export. -/
structure Settings where
  namePrefix : String := ""
  rules : List RenameRule := []
  casing : CssName.Casing := .kebab
  colorFormat : ColorFormat := .hex
  unit : CssUnit := .px
  remBase : Float := 16.0
  /-- The id of the variable that holds the base of `rem` output. -/
  remBaseVariable : Option String := none
  precision : Option Int := none
  selector : String := ":root"
  /-- Modes have selectors of their own. -/
  modeSelectors : Bool := false
  collectionComments : Bool := true
  modeComments : Bool := false
  /-- Calculations are written out instead of being evaluated. -/
  calcExpressions : Bool := false
  includeStyles : Bool := false
  styleOutput : StyleOutput := .vars
  styleKinds : List StyleKind := StyleKind.all
  /-- The ids or names of the collections to export; nothing selects all. -/
  selected : Option (List String) := none
  banner : Option String := none
  compactJson : Bool := false

namespace Settings

/-- The formatting of a token without directives. -/
def formatting (s : Settings) : Formatting :=
  { unit := s.unit, remBase := s.remBase, colorFormat := s.colorFormat, precision := s.precision }

/-- The ids or names of the selected collections. -/
def selection (s : Settings) : List String :=
  s.selected.getD []

/-- Whether a collection is exported. -/
def includes (s : Settings) (collectionId collectionName : String) : Bool :=
  s.selection.isEmpty || s.selection.contains collectionId || s.selection.contains collectionName

/-- The name of a raw name in stylesheets. -/
def cssName (s : Settings) (rawName : String) : String :=
  CssName.format s.rules s.namePrefix rawName

end Settings

/-! ### Reading -/

open Schema

/-- A rename rule. -/
def RenameRule.read (j : Json) : Except Fault RenameRule := do
  let f ← fields j
  return {
    id := ← withDefault f ["id"] "" text
    pattern := ← required f ["pattern"] text
    replacement := ← required f ["replacement"] text
    enabled := ← withDefault f ["enabled"] true bool }

/-- The settings of plain data. -/
def Settings.read (j : Json) : Except Fault Settings := do
  let f ← fields j
  return {
    namePrefix := ← withDefault f ["prefix"] "" text
    rules := ← withDefault f ["name_format_rules"] [] (list RenameRule.read)
    casing := ← withDefault f ["name_format_casing"] .kebab (choice CssName.Casing.ofName?)
    colorFormat := ← withDefault f ["color_format"] .hex (choice ColorFormat.ofName?)
    unit := ← withDefault f ["default_unit"] .px (choice CssUnit.ofName?)
    remBase := ← withDefault f ["rem_base"] 16.0 positive
    remBaseVariable := ← withDefault f ["rem_base_variable_id"] none (optional text)
    precision := ← withDefault f ["number_precision"] none (optional int)
    selector := ← withDefault f ["selector"] ":root" text
    modeSelectors := ← withDefault f ["use_modes_as_selectors"] false bool
    collectionComments := ← withDefault f ["include_collection_comments"] true bool
    modeComments := ← withDefault f ["include_mode_comments"] false bool
    calcExpressions := ← withDefault f ["export_as_calc_expressions"] false bool
    includeStyles := ← withDefault f ["include_styles"] false bool
    styleOutput := ← withDefault f ["style_output_mode"] .vars (choice StyleOutput.ofName?)
    styleKinds := ← withDefault f ["style_types"] StyleKind.all (list (choice StyleKind.ofName?))
    selected := ← withDefault f ["selected_collections"] none (optional (list text))
    banner := ← withDefault f ["header_banner"] none (optional text)
    compactJson := ← withDefault f ["compact_json"] false bool }

/-! ### Writing -/

/-- A text, or null. -/
def optionalText : Option String → Json
  | some s => .text s
  | none => .null

/-- A list of texts. -/
def textList (texts : List String) : Json := .list (texts.map .text)

/-- A rename rule as plain data, every field written. -/
def RenameRule.toJson (r : RenameRule) : Json :=
  .object [("id", .text r.id), ("pattern", .text r.pattern), ("replacement", .text r.replacement),
    ("enabled", .bool r.enabled)]

/-- A rename rule as plain data, without the fields that have their default values. -/
def RenameRule.changesToJson (r : RenameRule) : Json :=
  .object ((if r.id = "" then [] else [("id", .text r.id)]) ++
    [("pattern", .text r.pattern), ("replacement", .text r.replacement)] ++
    (if r.enabled then [] else [("enabled", .bool false)]))

/-- The fields of settings in order, each with whether it has its default value. -/
def Settings.entries (rule : RenameRule → Json) (s : Settings) : List (String × Bool × Json) :=
  [("prefix", s.namePrefix == "", .text s.namePrefix),
    ("name_format_rules", s.rules.isEmpty, .list (s.rules.map rule)),
    ("name_format_casing", s.casing == .kebab, .text s.casing.name),
    ("color_format", s.colorFormat == .hex, .text s.colorFormat.name),
    ("default_unit", s.unit == .px, .text s.unit.name),
    ("rem_base", s.remBase == 16.0, .float s.remBase),
    ("rem_base_variable_id", s.remBaseVariable.isNone, optionalText s.remBaseVariable),
    ("number_precision", s.precision.isNone, s.precision.elim .null .int),
    ("selector", s.selector == ":root", .text s.selector),
    ("use_modes_as_selectors", !s.modeSelectors, .bool s.modeSelectors),
    ("include_collection_comments", s.collectionComments, .bool s.collectionComments),
    ("include_mode_comments", !s.modeComments, .bool s.modeComments),
    ("export_as_calc_expressions", !s.calcExpressions, .bool s.calcExpressions),
    ("include_styles", !s.includeStyles, .bool s.includeStyles),
    ("style_output_mode", s.styleOutput == .vars, .text s.styleOutput.name),
    ("style_types", s.styleKinds == StyleKind.all, textList (s.styleKinds.map StyleKind.name)),
    ("selected_collections", s.selected.isNone, s.selected.elim .null textList),
    ("header_banner", s.banner.isNone, optionalText s.banner),
    ("compact_json", !s.compactJson, .bool s.compactJson)]

/-- Settings as plain data, every field written. -/
def Settings.toJson (s : Settings) : Json :=
  .object ((s.entries RenameRule.toJson).map fun (key, _, value) => (key, value))

/-- Settings as plain data, without the fields that have their default values. -/
def Settings.changesToJson (s : Settings) : Json :=
  .object ((s.entries RenameRule.changesToJson).filterMap fun (key, isDefault, value) =>
    if isDefault then none else some (key, value))

/-- The formatting of plain data. -/
def Formatting.read (j : Json) : Except Fault Formatting := do
  let f ← fields j
  return {
    unit := ← withDefault f ["unit"] .px (choice CssUnit.ofName?)
    remBase := ← withDefault f ["rem_base"] 16.0 positive
    colorFormat := ← withDefault f ["color_format"] .hex (choice ColorFormat.ofName?)
    expression := ← withDefault f ["expression"] none (optional text)
    precision := ← withDefault f ["precision"] none (optional int)
    remBasePath := ← withDefault f ["rem_base_variable_path"] none (optional text) }

/-- Which collections and styles a document is made of. -/
structure DocumentOptions where
  selected : Option (List String) := none
  includeStyles : Bool := false
  styleKinds : List StyleKind := StyleKind.all

/-- The options that settings ask for. -/
def Settings.documentOptions (s : Settings) : DocumentOptions :=
  { selected := s.selected, includeStyles := s.includeStyles, styleKinds := s.styleKinds }

/-- The document options of plain data. -/
def DocumentOptions.read (j : Json) : Except Fault DocumentOptions := do
  let f ← fields j
  return {
    selected := ← withDefault f ["selected_collections"] none (optional (list text))
    includeStyles := ← withDefault f ["include_styles"] false bool
    styleKinds := ← withDefault f ["style_types"] StyleKind.all (list (choice StyleKind.ofName?)) }

end DesignTokens
