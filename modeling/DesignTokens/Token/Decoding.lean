import DesignTokens.Schema
import DesignTokens.Token.Encoding

/-!
# Documents from JSON

A group is an object; a child of it with a `$value` is a token. The value of a token is a mode map
when it is an object that is neither a reference nor a composite value; composite values are told
by one key of theirs.
-/

namespace DesignTokens

open Schema

/-- The fault of a document. -/
def inputFault {α : Type} (problem : InputProblem) : Except Fault α :=
  .error (.malformedInput none problem)

/-- A record that does not fit makes the token it belongs to invalid. -/
def asTokenValue {α : Type} : Except Fault α → Except Fault α
  | .error .invalidRecord => inputFault .invalidTokenValue
  | result => result

/-! ### Composite values -/

/-- The keys of the fields of a typography value. -/
def Typography.keys : List (List String) :=
  [["fontFamily", "font_family"], ["fontSize", "font_size"], ["fontWeight", "font_weight"],
    ["fontStyle", "font_style"], ["lineHeight", "line_height"],
    ["letterSpacing", "letter_spacing"], ["textDecoration", "text_decoration"],
    ["textTransform", "text_transform"]]

/-- A typography value. -/
def Typography.read (j : Json) : Except Fault Typography := do
  let f ← fields j
  let textual := fun (keys : List String) => withDefault f keys none (optional text)
  return {
    fontFamily := ← required f ["fontFamily", "font_family"] text
    fontSize := ← required f ["fontSize", "font_size"] float
    fontWeight := ← withDefault f ["fontWeight", "font_weight"] 400.0 float
    fontStyle := ← textual ["fontStyle", "font_style"]
    lineHeight := ← textual ["lineHeight", "line_height"]
    letterSpacing := ← textual ["letterSpacing", "letter_spacing"]
    textDecoration := ← textual ["textDecoration", "text_decoration"]
    textTransform := ← textual ["textTransform", "text_transform"] }

/-- The keys of the fields of a shadow value. -/
def BoxShadow.keys : List (List String) :=
  [["offsetX", "offset_x"], ["offsetY", "offset_y"], ["blur"], ["spread"], ["color"], ["type"]]

/-- Whether a shadow is inside its box, by the name of its type. -/
def innerShadow? (s : String) : Option Bool :=
  [("dropShadow", false), ("innerShadow", true)].lookup s

/-- A shadow value. -/
def BoxShadow.read (j : Json) : Except Fault BoxShadow := do
  let f ← fields j
  return {
    offsetX := ← withDefault f ["offsetX", "offset_x"] 0.0 float
    offsetY := ← withDefault f ["offsetY", "offset_y"] 0.0 float
    blur := ← withDefault f ["blur"] 0.0 float
    spread := ← withDefault f ["spread"] 0.0 float
    color := ← required f ["color"] text
    inner := ← withDefault f ["type"] false (choice innerShadow?) }

/-- The grid direction with a name. -/
def GridDirection.ofName? (s : String) : Option GridDirection :=
  [columns, rows, grid].find? (·.name == s)

/-- The keys of the fields of a grid value. -/
def GridTracks.keys : List (List String) :=
  [["pattern"], ["count"], ["sectionSize", "section_size"], ["gutterSize", "gutter_size"],
    ["offset"]]

/-- A grid value. -/
def GridTracks.read (j : Json) : Except Fault GridTracks := do
  let f ← fields j
  return {
    pattern := ← required f ["pattern"] (choice GridDirection.ofName?)
    count := ← withDefault f ["count"] none (optional float)
    sectionSize := ← withDefault f ["sectionSize", "section_size"] none (optional float)
    gutterSize := ← withDefault f ["gutterSize", "gutter_size"] 0.0 float
    offset := ← withDefault f ["offset"] 0.0 float }

/-- How many fields of a record are present. -/
def presentCount (keys : List (List String)) (fields : List (String × Json)) : Nat :=
  keys.countP fun names => (find? names fields).isSome

/-- The readings of an object as a composite value, each with how many of its fields are present. -/
def compositeReadings (f : List (String × Json)) : List (Nat × Literal) :=
  let reading := fun (keys : List (List String)) (r : Except Fault Literal) =>
    match r with
    | .ok l => [(presentCount keys f, l)]
    | .error _ => []
  reading Typography.keys ((Typography.read (.object f)).map .typography) ++
    reading BoxShadow.keys ((BoxShadow.read (.object f)).map .shadow) ++
    reading GridTracks.keys ((GridTracks.read (.object f)).map .grid)

/-- The reading with the most fields present, the first one of several. -/
def fullest : List (Nat × Literal) → Option (Nat × Literal)
  | [] => none
  | r :: rest => match fullest rest with
    | some best => some (if r.1 < best.1 then best else r)
    | none => some r

/-- The composite value of an object of any kind. -/
def readComposite (f : List (String × Json)) : Except Fault Literal :=
  require ((fullest (compositeReadings f)).map (·.2))

/-! ### Values -/

/-- The key that tells a composite value of a type from a mode map. -/
def TokenType.marker? : TokenType → Option String
  | typography => some "fontFamily"
  | shadow => some "color"
  | grid => some "pattern"
  | color | number | string | boolean => none

/-- The composite value of an object for a token of a type. -/
def readLiteralObject (type : TokenType) (f : List (String × Json)) : Except Fault Literal :=
  match type with
  | .typography => (Typography.read (.object f)).map .typography
  | .shadow => (BoxShadow.read (.object f)).map .shadow
  | .grid => (GridTracks.read (.object f)).map .grid
  | .color | .number | .string | .boolean => readComposite f

/-- A single value. -/
def FlatValue.read (type : TokenType) : Json → Except Fault FlatValue
  | .null => inputFault .missingValue
  | .bool b => .ok (.literal (.bool b))
  | .int n => asTokenValue ((float (.int n)).map fun x => .literal (.number x))
  | .float x => .ok (.literal (.number x))
  | .text s => .ok (.literal (.text s))
  | .list _ => inputFault .invalidTokenValue
  | .object f => match OrderedMap.find? "$ref" f with
    | some path => .ok (.reference path.asText)
    | none => asTokenValue ((readLiteralObject type f).map .literal)

/-- Whether an object is a map from modes to values for a token of a type. -/
def isModeMap (type : TokenType) (f : List (String × Json)) : Bool :=
  !OrderedMap.has f "$ref" && match type.marker? with
    | some key => !OrderedMap.has f key
    | none => true

/-- The fields of an object, each read in the same way. -/
def readEntries {α : Type} (read : Json → Except Fault α) :
    List (String × Json) → Except Fault (OrderedMap α)
  | [] => .ok []
  | (key, j) :: rest => do
    let value ← read j
    return (key, value) :: (← readEntries read rest)

/-- The value of a token. -/
def TokenValue.read (type : TokenType) (j : Json) : Except Fault TokenValue :=
  match j with
  | .object f =>
    if isModeMap type f then (readEntries (FlatValue.read type) f).map .perMode
    else (FlatValue.read type j).map .flat
  | _ => (FlatValue.read type j).map .flat

/-! ### Tokens and trees -/

/-- What a token comes from. -/
def TokenOrigin.read (j : Json) : Except Fault TokenOrigin := do
  let f ← fields j
  return {
    unit := ← withDefault f ["unit"] none (optional text)
    resolvedType := ← withDefault f ["resolvedType", "resolved_type"] none (optional text)
    expression := ← withDefault f ["expression"] none (optional text) }

/-- The type of a token; a token without one is a text. -/
def readTokenType (f : List (String × Json)) : Except Fault TokenType :=
  match OrderedMap.find? "$type" f with
  | none => .ok .string
  | some j => match j.text?.bind TokenType.ofName? with
    | some type => .ok type
    | none => inputFault (.unknownTokenType j.display)

/-- A field of an object that may be missing or empty. -/
def fieldIfAny (key : String) (j : Option Json) : Except Fault (Option Json) :=
  match j with
  | none => .ok none
  | some j =>
    if j.isTruthy then match j with
      | .object f => .ok (OrderedMap.find? key f)
      | _ => .error .notAnObject
    else .ok none

/-- A token from its fields. -/
def Token.read (f : List (String × Json)) : Except Fault Token := do
  let type ← readTokenType f
  let origin ← fieldIfAny originKey (OrderedMap.find? "$extensions" f)
  let value ← TokenValue.read type ((OrderedMap.find? "$value" f).getD .null)
  let origin ← match origin.filter Json.isTruthy with
    | some j => asTokenValue ((TokenOrigin.read j).map some)
    | none => pure none
  let description ← asTokenValue (withDefault f ["$description"] none (optional text))
  return { type, value, description, origin }

/-- A token from plain data. -/
def Token.ofJson : Json → Except Fault Token
  | .object f => Token.read f
  | _ => .error .notAnObject

mutual

/-- A child of a group. -/
def readNode (name : String) : Json → Except Fault TokenNode
  | .object f =>
    if OrderedMap.has f "$value" then (Token.read f).map .token
    else (readChildren f).map .group
  | _ => inputFault (.notTokenOrGroup name)

/-- The children of a group; keys that begin with a dollar sign are passed over. -/
def readChildren : List (String × Json) → Except Fault TokenTree
  | [] => .ok []
  | (name, j) :: rest =>
    if name.toList.head? = some '$' then readChildren rest
    else do
      let node ← readNode name j
      return (name, node) :: (← readChildren rest)

end

/-- A tree. -/
def TokenTree.read : Json → Except Fault TokenTree
  | .object f => readChildren f
  | _ => .error .notAnObject

/-- The trees of style tokens; other keys are passed over. -/
def StyleTrees.read (f : List (String × Json)) : Except Fault StyleTrees := do
  let trees ← readEntries TokenTree.read (f.filter fun e => ["paint", "text", "effect", "grid"].contains e.1)
  let tree := fun (name : String) => OrderedMap.find? name trees
  return { paint := tree "paint", text := tree "text", effect := tree "effect", grid := tree "grid" }

/-- The source file and the time a document was made from and at. -/
def readMetadata (j : Json) : Except Fault (String × String) := do
  let f ← fields j
  return (← withDefault f ["sourceFile", "source_file"] "" text,
    ← withDefault f ["generatedAt", "generated_at"] "" text)

/-- A document. -/
def Document.read (j : Json) : Except Fault Document :=
  match j.field? "collections" with
  | some (.object trees) => do
    let collections ← readEntries TokenTree.read trees
    let styles ← match j.field? "$styles" with
      | some (.object f) => (StyleTrees.read f).map some
      | _ => pure none
    let metadata ← match (j.field? "$metadata").filter Json.isTruthy with
      | some m => readMetadata m
      | none => pure ("", "")
    let schema ← match j.field? "$schema" with
      | some s => text s
      | none => pure defaultSchema
    return { collections, styles, sourceFile := metadata.1, generatedAt := metadata.2, schema }
  | _ => inputFault .noCollections

end DesignTokens
