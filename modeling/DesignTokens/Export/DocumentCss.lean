import DesignTokens.Export.Layout
import DesignTokens.Export.Renderer

/-!
# Stylesheets of documents

The custom properties of a document in either layout, and its styles as more custom properties or as
utility classes.
-/

namespace DesignTokens

/-! ### Custom properties -/

namespace RenderedToken

/-- The declaration of a token in a rule of one mode for all. -/
def flatDeclaration (t : RenderedToken) : Declaration :=
  .custom t.name t.value.flatText

/-- The declaration of a token in the rule of a mode. A token with one value for all modes is
declared for the default mode only. -/
def declarationIn? (mode : String) (isDefault : Bool) (t : RenderedToken) : Option Declaration :=
  match t.value with
  | .single text => if isDefault then some (.custom t.name text) else none
  | .perMode modes => (OrderedMap.find? mode modes).map (Declaration.custom t.name)

end RenderedToken

/-- The modes that have rules: those of the tokens, in the order of their first appearance, or a
single default mode when no token has modes. Exactly one of them is the default. -/
def ruleModes (tokens : List RenderedToken) : List (String × Bool) :=
  match (tokens.flatMap (·.value.modeNames)).eraseDups with
  | [] => if tokens.isEmpty then [] else [("default", true)]
  | modes => modes.map fun mode => (mode, some mode == preferDefault? id modes)

/-- The rules of the modes of a collection. -/
def modeBlocks (tokens : List RenderedToken) : List ModeBlock :=
  (ruleModes tokens).map fun (mode, isDefault) =>
    { mode, isDefault, declarations := tokens.filterMap (·.declarationIn? mode isDefault) }

namespace Renderer

/-- The rendered tokens of every selected collection. -/
def collections (r : Renderer) : Except Fault (List (String × List RenderedToken)) :=
  (r.document.selected r.settings).mapM fun (name, tree) => do
    return (name, ← r.tokens name tree)

/-- The rendered style tokens, named after their kinds. -/
def styles (r : Renderer) : Except Fault (List RenderedToken) :=
  (r.document.styleTokens r.settings).mapM fun (kind, path, t) => r.token (stylePath kind path) t

/-! ### Utility classes -/

/-- The prefixes of the classes of a style token, each with the properties it sets. -/
def classProperties (r : Renderer) (kind : StyleKind) (t : Token) :
    Except Fault (List (String × List Property)) :=
  match t.flatValue? with
  | none => .ok []
  | some value =>
    match kind, value with
    | .text, .literal (.typography typography) => do
      return [("", ← r.typographyProperties typography)]
    | _, _ => do
      let text ← r.flatText t value
      return match kind with
        | .paint => [("", [("color", text)]), ("bg-", [("background-color", text)]),
            ("border-", [("border-color", text)])]
        | .effect => [("", if t.type = .shadow then [("box-shadow", text)] else [])]
        | .grid => [("", [("display", "grid"), ("grid-template-columns", text)])]
        | .text => [("", [])]

/-- The name of the class of the style token at a path. -/
def className (r : Renderer) (path : List String) : String :=
  styleClassName r.settings ("/".intercalate path)

/-- The declarations of properties. -/
def declarationsOf (properties : List Property) : List Declaration :=
  properties.map fun (property, value) => ⟨property, value⟩

/-- The title over the classes of a kind of styles. -/
def classesTitle (kind : StyleKind) : String :=
  Template.capitalize kind.name ++ " Style Classes"

/-- The utility classes of one kind of styles after the other; `current` is the kind whose title has
been written last. -/
def classItems (r : Renderer) (current : Option StyleKind) :
    List (StyleKind × List String × Token) → Except Fault (List CssItem)
  | [] => .ok []
  | (kind, path, t) :: rest => do
    let title := if current = some kind then [] else [CssItem.comment (classesTitle kind)]
    let classes ← r.classProperties kind t
    let rules := classes.map fun (start, properties) =>
      CssItem.ofDeclarations ("." ++ start ++ r.className path) (declarationsOf properties)
    return title ++ rules ++ [.blank] ++ (← r.classItems (some kind) rest)

end Renderer

/-! ### Sheets -/

/-- The title of a stylesheet. -/
def cssTitle : String := "Auto-generated CSS Custom Properties"

namespace Document

/-- The header of a file made of a document. -/
def header (d : Document) (s : Settings) (title : String) : Header :=
  { title
    source := d.sourceFile
    generated := if d.generatedAt = "" then "unknown" else d.generatedAt
    banner := s.banner }

/-- The custom properties of a document, styles among them, in the layout that settings ask for. -/
def propertyItems (r : Renderer) (styles : List BodyItem) : Except Fault (List CssItem) := do
  let collections ← r.collections
  if r.settings.modeSelectors then
    return Layout.byMode r.settings
      (collections.map fun (name, tokens) => ⟨name, modeBlocks tokens⟩) styles
  else
    return [Layout.flat r.settings
      (collections.map fun (name, tokens) => ⟨name, tokens.map (·.flatDeclaration)⟩) styles]

/-- The sheet of a document. -/
def cssItems (d : Document) (s : Settings) : Except Fault (List CssItem) := do
  let r : Renderer := { document := d, settings := s }
  match s.styleOutput with
  | .vars =>
    let styles ← r.styles
    propertyItems r (styles.map fun t => .declaration t.flatDeclaration)
  | .classes =>
    let properties ← propertyItems r []
    let classes ← r.classItems none (d.styleTokens s)
    return properties ++ if classes.isEmpty then [] else [.blank] ++ classes

/-- The stylesheet of a document. -/
def toCss (d : Document) (s : Settings) : Except Fault String := do
  return cssText (d.header s cssTitle) (← d.cssItems s)

end Document

end DesignTokens
