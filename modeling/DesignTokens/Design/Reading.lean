import DesignTokens.Design.Style
import DesignTokens.Schema

/-!
# Reading the records of a design file

Variables, collections and styles from plain data. Keys are written in camel case; the same words
joined by underscores are accepted too.
-/

namespace DesignTokens

open Schema

/-! ### Variables -/

/-- A color with an optional alpha. -/
def readColor (j : Json) : Except Fault Color := do
  let f ← fields j
  return ⟨← required f ["r"] float, ← required f ["g"] float, ← required f ["b"] float,
    ← withDefault f ["a"] 1.0 float⟩

/-- The one name that a literal may have. -/
def literal (names : List String) (j : Json) : Except Fault String := do
  let s ← text j
  if names.contains s then return s else invalid

/-- The id of the variable that an alias stands for. -/
def readAlias (j : Json) : Except Fault String := do
  let f ← fields j
  let _ ← withDefault f ["type"] "VARIABLE_ALIAS" (literal ["VARIABLE_ALIAS"])
  required f ["id"] text

/-- A value of a variable. An object that is both a color and an alias has more of the fields of a
color, and is read as one. -/
def readValue : Json → Except Fault VariableValue
  | .bool b => .ok (.bool b)
  | .text s => .ok (.text s)
  | .int n => (float (.int n)).map .number
  | .float x => .ok (.number x)
  | j => match readColor j with
    | .ok color => .ok (.color color)
    | .error _ => (readAlias j).map .aliasOf

/-- A variable. -/
def Variable.read (j : Json) : Except Fault Variable := do
  let f ← fields j
  return {
    id := ← required f ["id"] text
    name := ← required f ["name"] text
    type := ← required f ["resolvedType", "resolved_type"] (choice VariableType.ofName?)
    values := ← withDefault f ["valuesByMode", "values_by_mode"] [] (map readValue)
    collectionId := ← required f ["variableCollectionId", "variable_collection_id"] text
    description := ← withDefault f ["description"] "" text
    codeSyntax := ← withDefault f ["codeSyntax", "code_syntax"] [] (map text) }

/-- A mode. -/
def Mode.read (j : Json) : Except Fault Mode := do
  let f ← fields j
  return ⟨← required f ["modeId", "mode_id"] text, ← required f ["name"] text⟩

/-- A collection. -/
def Collection.read (j : Json) : Except Fault Collection := do
  let f ← fields j
  return {
    id := ← required f ["id"] text
    name := ← required f ["name"] text
    modes := ← withDefault f ["modes"] [] (list Mode.read)
    defaultModeId := ← required f ["defaultModeId", "default_mode_id"] text }

/-! ### Writing variables -/

/-- A color as plain data. -/
def colorToJson (c : Color) : Json :=
  .object [("r", .float c.r), ("g", .float c.g), ("b", .float c.b), ("a", .float c.a)]

/-- A value as plain data. -/
def VariableValue.toJson : VariableValue → Json
  | bool b => .bool b
  | number x => .float x
  | text s => .text s
  | color c => colorToJson c
  | aliasOf id => .object [("type", .text "VARIABLE_ALIAS"), ("id", .text id)]

/-- A variable as plain data, every field written. -/
def Variable.toJson (v : Variable) : Json :=
  .object [
    ("id", .text v.id),
    ("name", .text v.name),
    ("resolvedType", .text v.type.name),
    ("valuesByMode", .object (v.values.map fun (mode, value) => (mode, value.toJson))),
    ("variableCollectionId", .text v.collectionId),
    ("description", .text v.description),
    ("codeSyntax", .object (v.codeSyntax.map fun (platform, code) => (platform, .text code)))]

/-! ### Styles -/

/-- The id of a bound variable. -/
def readBinding (j : Json) : Except Fault String := do
  required (← fields j) ["variableId", "variable_id"] text

/-- A color of a gradient. -/
def ColorStop.read (j : Json) : Except Fault ColorStop := do
  let f ← fields j
  let position ← required f ["position"] float
  let color ← required f ["color"] readColor
  let bound ← withDefault f ["boundVariables", "bound_variables"] [] (map readAlias)
  return ⟨position, color, OrderedMap.find? "color" bound⟩

/-- The shape of a gradient paint. -/
def GradientKind.ofName? (s : String) : Option GradientKind :=
  [("GRADIENT_LINEAR", linear), ("GRADIENT_RADIAL", radial), ("GRADIENT_ANGULAR", angular),
    ("GRADIENT_DIAMOND", diamond)].lookup s

/-- A solid paint. -/
def readSolid (f : List (String × Json)) : Except Fault Fill := do
  let c ← fields (← require (find? ["color"] f))
  return .solid (← required c ["r"] float) (← required c ["g"] float) (← required c ["b"] float)
    (← withDefault f ["opacity"] 1.0 float)

/-- A gradient paint. -/
def readGradient (kind : GradientKind) (f : List (String × Json)) : Except Fault Fill := do
  let stops ← withDefault f ["gradientStops", "gradient_stops"] [] (list ColorStop.read)
  let transform ← withDefault f ["gradientTransform", "gradient_transform"]
    [[1.0, 0.0, 0.0], [0.0, 1.0, 0.0]] (list (list float))
  let _ ← withDefault f ["opacity"] 1.0 float
  return .gradient ⟨kind, stops, transform⟩

/-- A paint; its type decides which fields it has. -/
def Paint.read (j : Json) : Except Fault Paint := do
  let f ← fields j
  let type ← required f ["type"] text
  let fill ←
    if type = "SOLID" then readSolid f
    else if type = "IMAGE" ∨ type = "VIDEO" then pure .image
    else readGradient (← require (GradientKind.ofName? type)) f
  return ⟨fill, ← withDefault f ["visible"] true bool⟩

/-- A paint style. -/
def PaintStyle.read (j : Json) : Except Fault PaintStyle := do
  let f ← fields j
  let readBound := fun (j : Json) => do
    withDefault (← fields j) ["color"] none (optional readBinding)
  return {
    id := ← required f ["id"] text
    name := ← required f ["name"] text
    description := ← withDefault f ["description"] "" text
    paints := ← withDefault f ["paints"] [] (list Paint.read)
    boundColors := ←
      withDefault f ["paintBoundVariables", "paint_bound_variables"] [] (list readBound) }

/-- The unit of a line height. -/
def LineHeightUnit.ofName? (s : String) : Option LineHeightUnit :=
  [("AUTO", auto), ("PIXELS", pixels), ("PERCENT", percent)].lookup s

/-- A line height: its unit and its number. -/
def readLineHeight (j : Json) : Except Fault (LineHeightUnit × Float) := do
  let f ← fields j
  return (← withDefault f ["unit"] .auto (choice LineHeightUnit.ofName?),
    ← withDefault f ["value"] 0.0 float)

/-- A letter spacing: whether it is a percentage, and its number. -/
def readLetterSpacing (j : Json) : Except Fault (Bool × Float) := do
  let f ← fields j
  let unit ← withDefault f ["unit"] "PIXELS" (literal ["PIXELS", "PERCENT"])
  return (unit == "PERCENT", ← withDefault f ["value"] 0.0 float)

/-- The case of a text style with a name; any other name leaves the text as it is. -/
def TextCase.ofName? (s : String) : Option TextCase :=
  [("UPPER", upper), ("LOWER", lower), ("TITLE", title)].lookup s

/-- A text style. -/
def TextStyle.read (j : Json) : Except Fault TextStyle := do
  let f ← fields j
  let lineHeight ← withDefault f ["lineHeight", "line_height"] (.auto, 0.0) readLineHeight
  let spacing ← withDefault f ["letterSpacing", "letter_spacing"] (false, 0.0) readLetterSpacing
  return {
    id := ← required f ["id"] text
    name := ← required f ["name"] text
    description := ← withDefault f ["description"] "" text
    fontFamily := ← required f ["fontFamily", "font_family"] text
    fontStyle := ← withDefault f ["fontStyle", "font_style"] "Regular" text
    fontSize := ← required f ["fontSize", "font_size"] float
    fontWeight := ← withDefault f ["fontWeight", "font_weight"] 400 int
    lineHeightUnit := lineHeight.1
    lineHeight := lineHeight.2
    spacingInPercent := spacing.1
    letterSpacing := spacing.2
    decoration := ← withDefault f ["textDecoration", "text_decoration"] "NONE" text
    textCase := TextCase.ofName? (← withDefault f ["textCase", "text_case"] "" text) }

/-- The offset of a shadow. -/
def readOffset (j : Json) : Except Fault (Float × Float) := do
  let f ← fields j
  return (← withDefault f ["x"] 0.0 float, ← withDefault f ["y"] 0.0 float)

/-- A shadow effect. -/
def readShadow (inner : Bool) (f : List (String × Json)) : Except Fault EffectKind := do
  let color ← required f ["color"] readColor
  let offset ← withDefault f ["offset"] (0.0, 0.0) readOffset
  return .shadow {
    inner, color
    offsetX := offset.1
    offsetY := offset.2
    radius := ← withDefault f ["radius"] 0.0 float
    spread := ← withDefault f ["spread"] 0.0 float }

/-- A blur effect. -/
def readBlur (background : Bool) (f : List (String × Json)) : Except Fault EffectKind := do
  return .blur ⟨background, ← withDefault f ["radius"] 0.0 float⟩

/-- An effect; its type decides which fields it has. -/
def Effect.read (j : Json) : Except Fault Effect := do
  let f ← fields j
  let type ← required f ["type"] text
  let kind ←
    if type = "DROP_SHADOW" then readShadow false f
    else if type = "INNER_SHADOW" then readShadow true f
    else if type = "LAYER_BLUR" then readBlur false f
    else if type = "BACKGROUND_BLUR" then readBlur true f
    else invalid
  return ⟨kind, ← withDefault f ["visible"] true bool⟩

/-- The variables bound to values of an effect. -/
def EffectBinding.read (j : Json) : Except Fault EffectBinding := do
  let f ← fields j
  let bound := fun (keys : List String) => withDefault f keys none (optional readBinding)
  return ⟨← bound ["color"], ← bound ["radius"], ← bound ["spread"],
    ← bound ["offsetX", "offset_x"], ← bound ["offsetY", "offset_y"]⟩

/-- An effect style. -/
def EffectStyle.read (j : Json) : Except Fault EffectStyle := do
  let f ← fields j
  return {
    id := ← required f ["id"] text
    name := ← required f ["name"] text
    description := ← withDefault f ["description"] "" text
    effects := ← withDefault f ["effects"] [] (list Effect.read)
    bindings := ←
      withDefault f ["effectBoundVariables", "effect_bound_variables"] []
        (list EffectBinding.read) }

/-- The pattern of a layout grid. -/
def GridPattern.ofName? (s : String) : Option GridPattern :=
  [("COLUMNS", columns), ("ROWS", rows), ("GRID", grid)].lookup s

/-- A layout grid. -/
def LayoutGrid.read (j : Json) : Except Fault LayoutGrid := do
  let f ← fields j
  return {
    pattern := ← required f ["pattern"] (choice GridPattern.ofName?)
    sectionSize := ← withDefault f ["sectionSize", "section_size"] 0.0 float
    count := ← withDefault f ["count"] none (optional float)
    gutterSize := ← withDefault f ["gutterSize", "gutter_size"] 0.0 float
    offset := ← withDefault f ["offset"] 0.0 float
    visible := ← withDefault f ["visible"] true bool }

/-- A grid style. -/
def GridStyle.read (j : Json) : Except Fault GridStyle := do
  let f ← fields j
  return {
    id := ← required f ["id"] text
    name := ← required f ["name"] text
    description := ← withDefault f ["description"] "" text
    grids := ← withDefault f ["layoutGrids", "layout_grids"] [] (list LayoutGrid.read) }

/-- The styles of a design file. -/
def Styles.read (j : Json) : Except Fault Styles := do
  let f ← fields j
  return {
    paint := ← withDefault f ["paint"] [] (list PaintStyle.read)
    text := ← withDefault f ["text"] [] (list TextStyle.read)
    effect := ← withDefault f ["effect"] [] (list EffectStyle.read)
    grid := ← withDefault f ["grid"] [] (list GridStyle.read) }

end DesignTokens
