import DesignTokens.Json.Basic
import DesignTokens.Token.Document

/-!
# Documents as JSON

Keys that begin with a dollar sign describe a token; all other keys are names of tokens and groups.
Fields without a value are left out, and whole numbers are kept as integers.
-/

namespace DesignTokens

/-- A field that is left out when there is no text. -/
def textField (key : String) : Option String → List (String × Json)
  | some s => [(key, .text s)]
  | none => []

/-- A field that is left out when there is no number. -/
def numberField (key : String) : Option Float → List (String × Json)
  | some x => [(key, .number x)]
  | none => []

/-- A typography value. -/
def Typography.toJson (t : Typography) : Json :=
  .object ([("fontFamily", Json.text t.fontFamily), ("fontSize", .number t.fontSize),
      ("fontWeight", .number t.fontWeight)] ++
    textField "fontStyle" t.fontStyle ++ textField "lineHeight" t.lineHeight ++
    textField "letterSpacing" t.letterSpacing ++ textField "textDecoration" t.textDecoration ++
    textField "textTransform" t.textTransform)

/-- A shadow value. -/
def BoxShadow.toJson (s : BoxShadow) : Json :=
  .object [("offsetX", .number s.offsetX), ("offsetY", .number s.offsetY), ("blur", .number s.blur),
    ("spread", .number s.spread), ("color", .text s.color),
    ("type", .text (if s.inner then "innerShadow" else "dropShadow"))]

/-- The name of a grid direction. -/
def GridDirection.name : GridDirection → String
  | columns => "columns"
  | rows => "rows"
  | grid => "grid"

/-- A grid value. -/
def GridTracks.toJson (g : GridTracks) : Json :=
  .object ([("pattern", Json.text g.pattern.name)] ++ numberField "count" g.count ++
    numberField "sectionSize" g.sectionSize ++
    [("gutterSize", .number g.gutterSize), ("offset", .number g.offset)])

/-- A literal value. -/
def Literal.toJson : Literal → Json
  | bool b => .bool b
  | number x => .number x
  | text s => .text s
  | typography t => t.toJson
  | shadow s => s.toJson
  | grid g => g.toJson

/-- A single value. -/
def FlatValue.toJson : FlatValue → Json
  | literal l => l.toJson
  | reference path => .object [("$ref", .text path)]

/-- The value of a token. -/
def TokenValue.toJson : TokenValue → Json
  | flat v => v.toJson
  | perMode modes => .object (modes.map fun (mode, v) => (mode, v.toJson))

/-- The key under which a token keeps what it comes from. -/
def originKey : String := "com.tokenvex"

/-- What a token comes from. -/
def TokenOrigin.toJson (o : TokenOrigin) : Json :=
  .object [(originKey, .object (textField "unit" o.unit ++
    textField "resolvedType" o.resolvedType ++ textField "expression" o.expression))]

/-- A token. -/
def Token.toJson (t : Token) : Json :=
  .object ([("$type", Json.text t.type.name), ("$value", t.value.toJson)] ++
    textField "$description" (t.description.filter (· ≠ "")) ++
    (match t.origin with
      | some o => [("$extensions", o.toJson)]
      | none => []))

mutual

/-- A token or a group. -/
def TokenNode.toJson : TokenNode → Json
  | .token t => t.toJson
  | .group children => .object (treeFields children)

/-- The fields of a group. -/
def treeFields : List (String × TokenNode) → List (String × Json)
  | [] => []
  | (name, node) :: rest => (name, node.toJson) :: treeFields rest

end

/-- A tree. -/
def TokenTree.toJson (tree : TokenTree) : Json :=
  .object (treeFields tree)

/-- A document. -/
def Document.toJson (d : Document) : Json :=
  let trees := fun (m : OrderedMap TokenTree) =>
    Json.object (m.map fun (name, tree) => (name, tree.toJson))
  .object ([("$schema", Json.text d.schema), ("collections", trees d.collections)] ++
    (if d.presentStyles.isEmpty then [] else [("$styles", trees d.presentStyles)]) ++
    [("$metadata", .object [("sourceFile", .text d.sourceFile),
      ("generatedAt", .text d.generatedAt)])])

end DesignTokens
