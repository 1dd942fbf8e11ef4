import DesignTokens.Design.Membership
import DesignTokens.Resolve.Style
import DesignTokens.Resolve.Calculation
import DesignTokens.Timestamp
import DesignTokens.Token.Document

/-!
# Documents of libraries

A library becomes a document: each selected collection a tree of tokens under the segments of the
variables' names, in natural order. Aliases become references by dotted paths, so that a document does
not depend on the ids of a design file; calculations are evaluated. A variable without any value
becomes no token.
-/

namespace DesignTokens

/-! ### Variables -/

/-- The type of the tokens made from a type of variables. -/
def VariableType.tokenType : VariableType → TokenType
  | color => .color
  | number => .number
  | text => .string
  | boolean => .boolean

/-- The segments of a name. -/
def nameSegments (name : String) : List String :=
  Document.segments name

/-- The name of a variable's collection in references. -/
def Library.homeName (l : Library) (v : Variable) : String :=
  ((l.home? v).map (·.name)).getD "Unknown"

/-- The dotted path of a variable. -/
def Library.dottedPath (l : Library) (v : Variable) : String :=
  l.homeName v ++ "." ++
    String.ofList (v.name.toList.map fun c => if c = '/' then '.' else c)

/-- The reference an alias becomes; an unknown variable is referred to by its id. -/
def Library.referenceTo (l : Library) (id : String) : FlatValue :=
  .reference (((l.byId? id).map l.dottedPath).getD id)

namespace Scope

/-- The result of a calculation, when the formatting of a numeric variable has one and there is
nothing to warn about. -/
def calculatedLiteral? (s : Scope) (type : VariableType) (f : Formatting) (modeId : String) :
    Except Fault (Option Literal) :=
  if type = .number ∧ f.calculation?.isSome then do
    return (← s.calculated? f modeId).map fun q => .number q.value
  else .ok none

/-- A value that is no alias as a literal of the type of its variable; a value of another kind is
written as text. -/
def literalOf (type : VariableType) : VariableValue → Except Fault Literal
  | .color c => c.toHex.map .text
  | .number x => .ok (if type = .number then .number x else .text (Number.plain x))
  | .text t => .ok (.text t)
  | .bool b => .ok <| match type with
    | .number => .number (if b then 1.0 else 0.0)
    | .boolean => .bool b
    | .color | .text => .text (if b then "true" else "false")
  | .aliasOf id => .ok (.text id)

/-- The token value of a value in a mode. -/
def flatValue (s : Scope) (v : Variable) (f : Formatting) (modeId : String) :
    VariableValue → Except Fault FlatValue
  | .aliasOf id => .ok (s.referenceTo id)
  | value => do
    match ← s.calculatedLiteral? v.type f modeId with
    | some result => return .literal result
    | none => return .literal (← literalOf v.type value)

/-- The values of a variable in the modes of its collection that it has a value for, by the names of
the modes. -/
def modeValues (s : Scope) (v : Variable) (f : Formatting) :
    List Mode → Except Fault (List (String × FlatValue))
  | [] => .ok []
  | mode :: rest => match OrderedMap.find? mode.id v.values with
    | none => modeValues s v f rest
    | some value => do
      let value ← s.flatValue v f mode.id value
      return (mode.name, value) :: (← modeValues s v f rest)

/-- The token value of a variable, if it has any: one for all modes when its collection has at most
one mode, and one per mode otherwise. -/
def tokenValue? (s : Scope) (c : Collection) (v : Variable) (f : Formatting) :
    Except Fault (Option TokenValue) :=
  if c.modes.length ≤ 1 then
    match OrderedMap.find? c.defaultModeId v.values with
    | none => .ok none
    | some value => (s.flatValue v f c.defaultModeId value).map fun x => some (.flat x)
  else do
    match ← s.modeValues v f c.modes with
    | [] => return none
    | values => return some (.perMode (OrderedMap.ofList values))

/-- What the token of a variable keeps of it. -/
def originOf (v : Variable) (d : Directives) : TokenOrigin :=
  { unit := (d.unit.filter (· ≠ .px)).map CssUnit.name
    resolvedType := some v.type.name
    expression := d.expression }

/-- The token of a variable, if it has a value. -/
def token? (s : Scope) (c : Collection) (v : Variable) : Except Fault (Option Token) := do
  let directives ← Directives.parse v.description
  match ← s.tokenValue? c v (s.base.overlay directives) with
  | none => return none
  | some value =>
    return some {
      type := v.type.tokenType
      value
      description := if v.description = "" then none else some v.description
      origin := some (originOf v directives) }

/-- Adds the token of a variable to the tree of its collection. -/
def addToken (s : Scope) (c : Collection) (tree : TokenTree) (v : Variable) :
    Except Fault TokenTree := do
  match ← s.token? c v with
  | none => return tree
  | some token => match tree.insert (nameSegments v.name) token with
    | .ok tree => return tree
    | .error conflict => throw (.treeConflict conflict)

/-- The tree of a collection. -/
def tree (s : Scope) (c : Collection) : Except Fault TokenTree := do
  (← c.members Variable.name s.vars).foldlM (s.addToken c) []

end Scope

/-! ### Styles -/

/-- The token of a style. -/
def styleToken (type : TokenType) (description : String) (value : Literal) : Token :=
  { type
    value := .flat (.literal value)
    description := if description = "" then none else some description }

/-- The token of a paint style, its color in hexadecimal notation. -/
def PaintStyle.token (style : PaintStyle) : Except Fault Token := do
  let f ← ({} : Formatting).describedBy style.description
  let text ← style.text (fun _ => none) { f with colorFormat := .hex }
  return styleToken .color style.description (.text text)

/-- The value of a property in a list. -/
def propertyValue? (name : String) (properties : List Property) : Option String :=
  OrderedMap.find? name properties

/-- The token of a text style. A weight beyond all floating-point numbers fits no token. -/
def TextStyle.token (style : TextStyle) : Except Fault Token := do
  let properties ← style.properties (← ({} : Formatting).describedBy style.description)
  let weight := Float.ofInt style.fontWeight
  if weight.isInf then throw .invalidRecord
  return styleToken .typography style.description <| .typography {
    fontFamily := style.fontFamily
    fontSize := style.fontSize
    fontWeight := weight
    fontStyle := propertyValue? "font-style" properties
    lineHeight := propertyValue? "line-height" properties
    letterSpacing := propertyValue? "letter-spacing" properties
    textDecoration := propertyValue? "text-decoration" properties
    textTransform := propertyValue? "text-transform" properties }

/-- A shadow as a token value. -/
def Shadow.boxShadow (s : Shadow) : Except Fault BoxShadow := do
  return {
    offsetX := s.offsetX
    offsetY := s.offsetY
    blur := s.radius
    spread := s.spread
    color := ← s.color.toHex
    inner := s.inner }

/-- The token of an effect style: its first visible shadow, if it has one. -/
def EffectStyle.token? (style : EffectStyle) : Except Fault (Option Token) :=
  match style.shadows with
  | [] => .ok none
  | (shadow, _) :: _ =>
    shadow.boxShadow.map fun b => some (styleToken .shadow style.description (.shadow b))

/-- The direction of the tracks of a layout grid. -/
def GridPattern.direction : GridPattern → GridDirection
  | columns => .columns
  | rows => .rows
  | grid => .grid

/-- A layout grid as a token value. -/
def LayoutGrid.gridTracks (g : LayoutGrid) : GridTracks :=
  { pattern := g.pattern.direction
    count := g.count.filter fun n => 0.0 < n && n < 1.0 / 0.0
    sectionSize := if g.sectionSize == 0.0 then none else some g.sectionSize
    gutterSize := g.gutterSize
    offset := g.offset }

/-- The token of a grid style: its first visible grid, if it has one. -/
def GridStyle.token? (style : GridStyle) : Option Token :=
  style.visible.head?.map fun g => styleToken .grid style.description (.grid g.gridTracks)

/-- The tree of named tokens; a style without a token is left out. -/
def styleTree {α : Type} (name : α → String) (token? : α → Except Fault (Option Token))
    (styles : List α) : Except Fault TokenTree :=
  styles.foldlM (fun tree style => do
    match ← token? style with
    | none => return tree
    | some token => match TokenTree.insert (nameSegments (name style)) token tree with
      | .ok tree => return tree
      | .error conflict => throw (.treeConflict conflict)) []

/-- The tree of a kind of styles that is wanted; there is none when there are no such styles. -/
def styleTree? {α : Type} (wanted : Bool) (name : α → String)
    (token? : α → Except Fault (Option Token)) (styles : List α) :
    Except Fault (Option TokenTree) :=
  if wanted && !styles.isEmpty then (styleTree name token? styles).map some else .ok none

/-- The trees of the styles of the given kinds. -/
def Styles.trees (styles : Styles) (kinds : List StyleKind) : Except Fault StyleTrees := do
  let wanted := fun (kind : StyleKind) => kinds.contains kind
  return {
    paint := ← styleTree? (wanted .paint) PaintStyle.name (·.token.map some) styles.paint
    text := ← styleTree? (wanted .text) TextStyle.name (·.token.map some) styles.text
    effect := ← styleTree? (wanted .effect) EffectStyle.name EffectStyle.token? styles.effect
    grid := ← styleTree? (wanted .grid) GridStyle.name (fun s => .ok s.token?) styles.grid }

/-! ### Documents -/

/-- Adds the tree of a collection to a document. -/
def Document.addCollection (s : Scope) (d : Document) (c : Collection) :
    Except Fault Document := do
  return { d with collections := OrderedMap.set c.name (← s.tree c) d.collections }

/-- The document of a library under settings. -/
def Document.ofLibrary (library : Library) (settings : Settings) (options : DocumentOptions)
    (styles : Option Styles) (sourceFile generatedAt : String) : Except Fault Document := do
  let scope := Scope.ofSettings library settings
  let empty : Document := { sourceFile, generatedAt := timestamp generatedAt }
  let selected := Collection.select (options.selected.getD []) library.collections
  let document ← selected.foldlM (addCollection scope) empty
  match if options.includeStyles then styles else none with
  | some styles => return { document with styles := some (← styles.trees options.styleKinds) }
  | none => return document

end DesignTokens
