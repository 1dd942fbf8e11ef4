import DesignTokens.Design.Variable

/-!
# Styles

The paint, text, effect and grid styles of a design file. A style may bind some of its values to
variables, by their ids; the bindings of paints and effects are parallel lists.
-/

namespace DesignTokens

/-- A color of a gradient at a position between 0 and 1. -/
structure ColorStop where
  position : Float
  color : Color
  /-- The variable that gives the color. -/
  boundColor : Option String := none

/-- The shapes of gradients. -/
inductive GradientKind where
  | linear
  | radial
  | angular
  | diamond
deriving DecidableEq, Repr

/-- A gradient. -/
structure Gradient where
  kind : GradientKind
  stops : List ColorStop := []
  /-- The rows of the transform that places the gradient. -/
  transform : List (List Float) := [[1.0, 0.0, 0.0], [0.0, 1.0, 0.0]]

/-- What a paint paints with. -/
inductive Fill where
  /-- One color, opaque by itself. -/
  | solid (r g b opacity : Float)
  | gradient (gradient : Gradient)
  | image

/-- A paint. -/
structure Paint where
  fill : Fill
  visible : Bool := true

/-- A paint style. -/
structure PaintStyle where
  id : String
  name : String
  description : String := ""
  paints : List Paint := []
  /-- For each paint the variable that gives its color. -/
  boundColors : List (Option String) := []

/-- The ways to state a line height. -/
inductive LineHeightUnit where
  | auto
  | pixels
  | percent
deriving DecidableEq, Repr

/-- The cases a text style can put its text in. -/
inductive TextCase where
  | upper
  | lower
  | title
deriving DecidableEq, Repr

/-- A text style. -/
structure TextStyle where
  id : String
  name : String
  description : String := ""
  fontFamily : String
  fontStyle : String := "Regular"
  fontSize : Float
  fontWeight : Int := 400
  lineHeightUnit : LineHeightUnit := .auto
  lineHeight : Float := 0.0
  /-- The letter spacing is a percentage of the font size. -/
  spacingInPercent : Bool := false
  letterSpacing : Float := 0.0
  decoration : String := "NONE"
  /-- The case of the text, unless it stays as it is. -/
  textCase : Option TextCase := none

/-- A shadow. -/
structure Shadow where
  inner : Bool
  color : Color
  offsetX : Float := 0.0
  offsetY : Float := 0.0
  radius : Float := 0.0
  spread : Float := 0.0

/-- A blur, of the layer or of what is behind it. -/
structure Blur where
  background : Bool
  radius : Float := 0.0

/-- The kinds of effects. -/
inductive EffectKind where
  | shadow (shadow : Shadow)
  | blur (blur : Blur)

/-- An effect. -/
structure Effect where
  kind : EffectKind
  visible : Bool := true

/-- The variables that give values of an effect. -/
structure EffectBinding where
  color : Option String := none
  radius : Option String := none
  spread : Option String := none
  offsetX : Option String := none
  offsetY : Option String := none

/-- An effect style. -/
structure EffectStyle where
  id : String
  name : String
  description : String := ""
  effects : List Effect := []
  /-- For each effect the variables that give its values. -/
  bindings : List EffectBinding := []

/-- The patterns of layout grids. -/
inductive GridPattern where
  | columns
  | rows
  | grid
deriving DecidableEq, Repr

/-- A layout grid. -/
structure LayoutGrid where
  pattern : GridPattern
  sectionSize : Float := 0.0
  /-- The number of tracks; when it is missing or not positive, tracks fill the space. -/
  count : Option Float := none
  gutterSize : Float := 0.0
  offset : Float := 0.0
  visible : Bool := true

/-- A grid style. -/
structure GridStyle where
  id : String
  name : String
  description : String := ""
  grids : List LayoutGrid := []

/-- All styles of a design file. -/
structure Styles where
  paint : List PaintStyle := []
  text : List TextStyle := []
  effect : List EffectStyle := []
  grid : List GridStyle := []

/-- There are no styles. -/
def Styles.isEmpty (s : Styles) : Bool :=
  s.paint.isEmpty && s.text.isEmpty && s.effect.isEmpty && s.grid.isEmpty

end DesignTokens
