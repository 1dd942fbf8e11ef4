import DesignTokens.Export.DocumentCss
import DesignTokens.Sheet.Scss

/-!
# SCSS of documents

The tokens of a document as SCSS variables, each at the value of its default mode, and its styles as
more variables or as mixins.
-/

namespace DesignTokens

/-- The title of an SCSS sheet. -/
def scssTitle : String := "Auto-generated SCSS Variables"

/-- The title over the variables of styles. -/
def scssVariablesTitle : String := "═══ Style Variables ═══"

/-- The title over the mixins of styles. -/
def scssMixinsTitle : String := "═══ Style Mixins ═══"

/-- The variable of a token. -/
def RenderedToken.scssItem (t : RenderedToken) : ScssItem :=
  .ofCss t.name t.value.flatText

/-- The items of several sections with blank lines between them. -/
def scssSections (s : Settings) (sections : List (String × List ScssItem)) : List ScssItem :=
  [ScssItem.blank].intercalate <| sections.map fun (name, items) =>
    (if s.collectionComments then [.comment ("Collection: " ++ name)] else []) ++ items

namespace Renderer

/-- The mixin of a style token. -/
def mixinItem (r : Renderer) (kind : StyleKind) (path : List String) (t : Token) :
    Except Fault ScssItem :=
  let name := r.className path
  match kind with
  | .paint => match t.flatValue? with
    | some value => do return colorMixin name (← r.flatText t value)
    | none => .ok (colorMixin name "")
  | _ => do
    let classes ← r.classProperties kind t
    return .mixinOfCss name "" (declarationsOf ((classes.head?.map (·.2)).getD []))

/-- The mixins of the style tokens. -/
def mixinItems (r : Renderer) : Except Fault (List ScssItem) := do
  let mixins ← (r.document.styleTokens r.settings).mapM fun (kind, path, t) =>
    r.mixinItem kind path t
  return mixins.flatMap fun item => [item, .blank]

end Renderer

namespace Document

/-- The items of the styles of a document. -/
def scssStyleItems (r : Renderer) : Except Fault (List ScssItem) := do
  match r.settings.styleOutput with
  | .classes => return .comment scssMixinsTitle :: (← r.mixinItems)
  | .vars =>
    return .comment scssVariablesTitle :: (← r.styles).map RenderedToken.scssItem

/-- The SCSS sheet of a document. -/
def scssItems (d : Document) (s : Settings) : Except Fault (List ScssItem) := do
  let r : Renderer := { document := d, settings := s, language := .scss }
  let collections ← r.collections
  let vars := scssSections s <| collections.map fun (name, tokens) =>
    (name, tokens.map RenderedToken.scssItem)
  if (d.styleTokens s).isEmpty then return vars
  else return vars ++ [.blank] ++ (← scssStyleItems r)

/-- The SCSS file of a document. -/
def toScss (d : Document) (s : Settings) : Except Fault String := do
  return scssText (d.header s scssTitle) (← d.scssItems s)

end Document

end DesignTokens
