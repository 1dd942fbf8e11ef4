import DesignTokens.Design.Style
import DesignTokens.Formatting
import DesignTokens.Name.Format

/-!
# Values of styles as text

The stylesheet values of paint, text, effect and grid styles. A value bound to a variable shows a
reference to it, provided the variable has a stylesheet name.
-/

namespace DesignTokens

/-- The stylesheet names of variables by their ids. -/
abbrev VariableNames := String → Option String

/-- The reference to a bound variable, when it has a name. -/
def boundText? (names : VariableNames) (id : Option String) : Option String :=
  (id.bind names).bind fun name => if name = "" then none else some (CssName.reference name)

/-! ### Paint styles -/

/-- The angle of a linear gradient in whole degrees, from the first row of its transform. -/
def gradientAngle (transform : List (List Float)) : Except Fault Int :=
  match transform with
  | (a :: b :: _) :: _ => floorFloat (Float.atan2 b a * (180 / Oklch.pi) + 90 + 0.5)
  | _ => .error .shortTransform

/-- A color of a gradient with its position in percent. -/
def ColorStop.text (names : VariableNames) (f : Formatting) (stop : ColorStop) :
    Except Fault String := do
  let color ← match boundText? names stop.boundColor with
    | some reference => pure reference
    | none => f.color stop.color
  let position ← Number.rounded f.precision (stop.position * 100)
  return s!"{color} {position}%"

/-- A gradient; a diamond, which stylesheets do not have, is shown as a radial one. -/
def Gradient.text (names : VariableNames) (f : Formatting) (g : Gradient) :
    Except Fault String := do
  let stops := ", ".intercalate (← g.stops.mapM (·.text names f))
  match g.kind with
  | .linear =>
    let angle ← gradientAngle g.transform
    return s!"linear-gradient({angle}deg, {stops})"
  | .angular => return s!"conic-gradient({stops})"
  | .radial | .diamond => return s!"radial-gradient({stops})"

/-- The value of a paint style: its first paint. -/
def PaintStyle.text (names : VariableNames) (f : Formatting) (style : PaintStyle) :
    Except Fault String :=
  match style.paints with
  | [] => .ok "transparent"
  | paint :: _ => match paint.fill with
    | .solid r g b opacity =>
      match boundText? names (style.boundColors.head?.join) with
      | some reference => .ok reference
      | none => f.color ⟨r, g, b, opacity⟩
    | .gradient g => g.text names f
    | .image => .ok "/* unsupported paint type */"

/-! ### Text styles -/

/-- A property and its value. -/
abbrev Property := String × String

/-- The name of a case in stylesheets. -/
def TextCase.cssName : TextCase → String
  | upper => "uppercase"
  | lower => "lowercase"
  | title => "capitalize"

/-- The line height of a text style; an automatic one is not written. -/
def TextStyle.lineHeightText? (f : Formatting) (style : TextStyle) :
    Except Fault (Option String) :=
  match style.lineHeightUnit with
  | .auto => .ok none
  | .pixels => (f.number style.lineHeight).map some
  | .percent => (Number.rounded f.precision style.lineHeight).map fun n => some (n ++ "%")

/-- The letter spacing of a text style; a percentage is one of the font size. -/
def TextStyle.letterSpacingText (f : Formatting) (style : TextStyle) : Except Fault String :=
  if style.spacingInPercent then
    (Number.rounded f.precision (style.letterSpacing / 100)).map (· ++ "em")
  else f.number style.letterSpacing

/-- The decoration of a text style. -/
def TextStyle.decorationText? (style : TextStyle) : Option String :=
  if style.decoration = "NONE" then none
  else some (String.ofList (Text.replaceFirst '_' '-' (Text.lower style.decoration).toList))

/-- A text style is italic when the name of its font style says so. -/
def TextStyle.isItalic (style : TextStyle) : Bool :=
  Text.occursIn "italic".toList (Text.lower style.fontStyle).toList

/-- A property that may be missing. -/
def propertyList (name : String) : Option String → List Property
  | some value => [(name, value)]
  | none => []

/-- The properties of a text style in the order of their declarations. -/
def TextStyle.properties (f : Formatting) (style : TextStyle) : Except Fault (List Property) := do
  let family := style.fontFamily
  let size ← f.number style.fontSize
  let lineHeight ← style.lineHeightText? f
  let letterSpacing ← style.letterSpacingText f
  return [("font-family", s!"\"{family}\", sans-serif"), ("font-size", size),
      ("font-weight", toString style.fontWeight)] ++
    propertyList "font-style" (if style.isItalic then some "italic" else none) ++
    propertyList "line-height" lineHeight ++
    [("letter-spacing", letterSpacing)] ++
    propertyList "text-decoration" style.decorationText? ++
    propertyList "text-transform" (style.textCase.map TextCase.cssName)

/-! ### Effect styles -/

/-- A number in pixels. -/
def pixels (x : Float) : String :=
  Number.plain x ++ "px"

/-- The visible effects of a style, each with the bindings at its position. -/
def EffectStyle.visible (style : EffectStyle) : List (EffectKind × EffectBinding) :=
  (style.effects.zipIdx.filter (·.1.visible)).map fun (effect, index) =>
    (effect.kind, style.bindings[index]?.getD {})

/-- The visible shadows of a style with their bindings. -/
def EffectStyle.shadows (style : EffectStyle) : List (Shadow × EffectBinding) :=
  style.visible.filterMap fun (kind, binding) => match kind with
    | .shadow s => some (s, binding)
    | .blur _ => none

/-- The visible blurs of a style with their bindings. -/
def EffectStyle.blurs (style : EffectStyle) : List (Blur × EffectBinding) :=
  style.visible.filterMap fun (kind, binding) => match kind with
    | .blur b => some (b, binding)
    | .shadow _ => none

/-- A shadow. -/
def Shadow.text (names : VariableNames) (f : Formatting) (s : Shadow) (binding : EffectBinding) :
    Except Fault String := do
  let x := (boundText? names binding.offsetX).getD (pixels s.offsetX)
  let y := (boundText? names binding.offsetY).getD (pixels s.offsetY)
  let blur := (boundText? names binding.radius).getD (pixels s.radius)
  let spread := (boundText? names binding.spread).getD (pixels s.spread)
  let color ← match boundText? names binding.color with
    | some reference => pure reference
    | none => f.color s.color
  let inset := if s.inner then "inset " else ""
  return s!"{inset}{x} {y} {blur} {spread} {color}"

/-- A blur. -/
def Blur.text (names : VariableNames) (b : Blur) (binding : EffectBinding) : String :=
  let radius := (boundText? names binding.radius).getD (pixels b.radius)
  s!"blur({radius})"

/-- The value of an effect style: its shadows, or its blurs when it has no shadow. -/
def EffectStyle.text (names : VariableNames) (f : Formatting) (style : EffectStyle) :
    Except Fault String := do
  let shadows ← style.shadows.mapM fun (s, binding) => s.text names f binding
  let blurs := style.blurs.map fun (b, binding) => b.text names binding
  if !shadows.isEmpty then return ", ".intercalate shadows
  else if !blurs.isEmpty then return " ".intercalate blurs
  else return "none"

/-- The filter of the blurs of the layer, or of those behind it. -/
def EffectStyle.filter? (names : VariableNames) (background : Bool) (style : EffectStyle) :
    Option String :=
  let blurs := (style.blurs.filter (·.1.background == background)).map fun (b, binding) =>
    b.text names binding
  if blurs.isEmpty then none else some (" ".intercalate blurs)

/-- Whether a style has a visible shadow. -/
def EffectStyle.hasShadow (style : EffectStyle) : Bool :=
  !style.shadows.isEmpty

/-! ### Grid styles -/

/-- The number of tracks of a grid, or that they fill the space. -/
def LayoutGrid.trackCount (grid : LayoutGrid) : String :=
  match grid.count with
  | some n => if n ≤ 0.0 || n.isInf then "auto-fill" else Number.plain n
  | none => "auto-fill"

/-- The tracks of a grid. -/
def LayoutGrid.tracks (grid : LayoutGrid) : String :=
  "repeat(" ++ grid.trackCount ++ ", " ++ pixels grid.sectionSize ++ ")"

/-- The visible grids of a style. -/
def GridStyle.visible (style : GridStyle) : List LayoutGrid :=
  style.grids.filter (·.visible)

/-- The value of a grid style: the first visible column grid and the first visible row grid. -/
def GridStyle.text (style : GridStyle) : String :=
  let values := [GridPattern.columns, .rows].filterMap fun pattern =>
    (style.visible.find? (·.pattern == pattern)).map (·.tracks)
  if values.isEmpty then "none" else " / ".intercalate values

end DesignTokens
