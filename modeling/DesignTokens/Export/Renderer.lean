import DesignTokens.Name.Order
import DesignTokens.Resolve.Passthrough
import DesignTokens.Resolve.Style
import DesignTokens.Resolve.Value
import DesignTokens.Token.Document

/-!
# Rendered tokens

The tokens of a document with their names and values as they appear in a stylesheet. Settings decide
on names, units and notations; references are looked up in the document and rendered as references to
the custom property of the token they name.
-/

namespace DesignTokens

/-- The value of a rendered token: one for all modes, or one per mode, of which there is at least
one. -/
inductive RenderedValue where
  | single (text : String)
  | perMode (modes : OrderedMap String)

namespace RenderedValue

/-- The values of several modes; without modes there is an empty value. -/
def ofModes : OrderedMap String → RenderedValue
  | [] => single ""
  | modes => perMode modes

/-- The names of the modes that have values of their own. -/
def modeNames : RenderedValue → List String
  | single _ => []
  | perMode modes => OrderedMap.keys modes

/-- The value where one value is needed. -/
def flatText : RenderedValue → String
  | single text => text
  | perMode modes => ((preferDefault? Prod.fst modes).map (·.2)).getD ""

end RenderedValue

/-- A token with its name and value in a stylesheet. -/
structure RenderedToken where
  name : String
  value : RenderedValue

/-- What the rendering of tokens depends on. -/
structure Renderer where
  document : Document
  settings : Settings
  /-- The language that calculations are written out in. -/
  language : CalcSyntax := .css

namespace Renderer

/-! ### Names -/

/-- The name of the token at a path. -/
def cssName (r : Renderer) (path : List String) : String :=
  r.settings.cssName ("/".intercalate path)

/-- The path that a dotted reference names; one that names no token is cut at its dots. -/
def referencePath (r : Renderer) (reference : String) : List String :=
  (r.document.resolveReference reference).getD
    ((reference.toList.splitOn '.').map String.ofList)

/-- The rendered form of a reference. -/
def referenceText (r : Renderer) (reference : String) : String :=
  CssName.reference (r.cssName (r.referencePath reference))

/-! ### Numbers -/

/-- A number of pixels in a unit. -/
def number (r : Renderer) (unit : CssUnit) (x : Float) : Except Fault String :=
  Number.withUnit unit r.settings.remBase r.settings.precision x

/-- A number in pixels. -/
def pixels (r : Renderer) (x : Float) : Except Fault String :=
  r.number .px x

/-- The unit of a token: the one it keeps, if there is such a unit, or the one of the settings. -/
def unitOf (r : Renderer) (t : Token) : CssUnit :=
  ((t.origin.bind (·.unit)).bind CssUnit.ofName?).getD r.settings.unit

/-- The calculation a token keeps, when calculations are written out. -/
def calculation? (r : Renderer) (t : Token) : Option String :=
  if r.settings.calcExpressions then (t.origin.bind (·.expression)).filter (· ≠ "") else none

/-! ### Composite values -/

/-- A text that is there and not empty. -/
def filled? (s : Option String) : Option String :=
  s.filter (· ≠ "")

/-- A font family with its fallback. -/
def familyText (family : String) : String :=
  s!"\"{family}\", sans-serif"

/-- A font weight. -/
def weightText (weight : Float) : Except Fault String :=
  Number.rounded none weight

/-- The properties of a typography value. -/
def typographyProperties (r : Renderer) (t : Typography) : Except Fault (List Property) := do
  let size ← r.number r.settings.unit t.fontSize
  let weight ← weightText t.fontWeight
  return [("font-family", familyText t.fontFamily), ("font-size", size), ("font-weight", weight)] ++
    propertyList "font-style" (filled? t.fontStyle) ++
    propertyList "line-height" (filled? t.lineHeight) ++
    propertyList "letter-spacing" (filled? t.letterSpacing) ++
    propertyList "text-decoration" (filled? t.textDecoration) ++
    propertyList "text-transform" (filled? t.textTransform)

/-- A typography value as one value: style, weight, size with line height, and family. -/
def fontText (r : Renderer) (t : Typography) : Except Fault String := do
  let size ← r.number r.settings.unit t.fontSize
  let weight ← weightText t.fontWeight
  let size := match filled? t.lineHeight with
    | some height => size ++ "/" ++ height
    | none => size
  return " ".intercalate
    ((filled? t.fontStyle).toList ++ [weight, size, familyText t.fontFamily])

/-- A shadow value. -/
def shadowText (r : Renderer) (s : BoxShadow) : Except Fault String := do
  let color ← recolor r.settings.colorFormat s.color
  let lengths ← [s.offsetX, s.offsetY, s.blur, s.spread].mapM r.pixels
  let inset := if s.inner then "inset " else ""
  return inset ++ " ".intercalate (lengths ++ [color])

/-- A number that is there and not zero. -/
def nonzero? (x : Option Float) : Option Float :=
  x.filter (· != 0.0)

/-- A grid value. -/
def gridText (r : Renderer) (g : GridTracks) : Except Fault String := do
  let count ← match nonzero? g.count with
    | some n => Number.rounded none n
    | none => pure "auto-fill"
  let size ← match nonzero? g.sectionSize with
    | some x => r.pixels x
    | none => pure "1fr"
  return s!"repeat({count}, {size})"

/-! ### Calculations written out -/

/-- The path of the token a calculation refers to, by slashes or, where there are none, by dots. -/
def findPath? (r : Renderer) (path : String) : Except Fault (Option (List String)) := do
  match ← r.document.resolvePath path with
  | some (found, _) => return some found
  | none => return if path.contains '/' then none else r.document.resolveReference path

/-- A piece of a calculation, quoted paths of tokens replaced by references. -/
def pieceText (r : Renderer) : Piece → Except Fault (List Char)
  | .plain c => .ok [c]
  | .reference (.path raw) => do
    match ← r.findPath? (Reference.pathText raw) with
    | some path => return (CssName.reference (r.cssName path)).toList
    | none => return (Reference.path raw).chars
  | .reference ref => .ok ref.chars

/-- A calculation written out. -/
def calculationText (r : Renderer) (text : String) : Except Fault String := do
  let written ← (pieces Reference.path? text.toList).mapM r.pieceText
  return r.language.finish (String.ofList written.flatten)

/-! ### Tokens -/

/-- A literal value of a token. -/
def literalText (r : Renderer) (t : Token) : Literal → Except Fault String
  | .text s => match t.type with
    | .color => recolor r.settings.colorFormat s
    | .string => .ok (cssString s)
    | _ => .ok s
  | .number x =>
    if t.type = .number then
      match r.calculation? t with
      | some text => r.calculationText text
      | none => r.number (r.unitOf t) x
    else Number.rounded r.settings.precision x
  | .bool b => .ok <|
    if t.type = .boolean then (if b then "1" else "0") else if b then "true" else "false"
  | .typography value => r.fontText value
  | .shadow value => r.shadowText value
  | .grid value => r.gridText value

/-- A single value of a token. -/
def flatText (r : Renderer) (t : Token) : FlatValue → Except Fault String
  | .reference path => .ok (r.referenceText path)
  | .literal value => r.literalText t value

/-- The values of several modes of a token. -/
def modeTexts (r : Renderer) (t : Token) :
    OrderedMap FlatValue → Except Fault (OrderedMap String)
  | [] => .ok []
  | (mode, value) :: rest => do
    let text ← r.flatText t value
    return (mode, text) :: (← r.modeTexts t rest)

/-- The value of a token. -/
def valueOf (r : Renderer) (t : Token) : Except Fault RenderedValue :=
  match t.value with
  | .flat value => (r.flatText t value).map .single
  | .perMode modes => (r.modeTexts t modes).map .ofModes

/-- The token at a path. -/
def token (r : Renderer) (path : List String) (t : Token) : Except Fault RenderedToken := do
  return { name := r.cssName path, value := ← r.valueOf t }

/-- The tokens of a collection in the natural order of their names. -/
def tokens (r : Renderer) (collection : String) (tree : TokenTree) :
    Except Fault (List RenderedToken) := do
  let rendered ← (tree.walk [collection]).mapM fun (path, t) => r.token path t
  NaturalOrder.sortBy RenderedToken.name rendered

end Renderer

/-! ### What is exported of a document -/

namespace Document

/-- The collections of a document that settings select, by their names. -/
def selected (d : Document) (s : Settings) : OrderedMap TokenTree :=
  if s.selection.isEmpty then d.collections
  else d.collections.filter fun c => s.selection.contains c.1

/-- The trees of the kinds of styles that settings ask for, in the order of the settings. -/
def selectedStyles (d : Document) (s : Settings) : List (StyleKind × TokenTree) :=
  if s.includeStyles then
    s.styleKinds.filterMap fun kind =>
      (OrderedMap.find? kind.name d.presentStyles).map fun tree => (kind, tree)
  else []

/-- The selected style tokens, each with its kind and its path. -/
def styleTokens (d : Document) (s : Settings) : List (StyleKind × List String × Token) :=
  (d.selectedStyles s).flatMap fun (kind, tree) => (tree.walk []).map fun (path, t) => (kind, path, t)

end Document

/-- The path by which a style token is named. -/
def stylePath (kind : StyleKind) (path : List String) : List String :=
  "styles" :: kind.name :: path

/-- The name of the class of a style. -/
def styleClassName (s : Settings) (styleName : String) : String :=
  CssName.withPrefix s.namePrefix (CssName.ofText styleName)

end DesignTokens
