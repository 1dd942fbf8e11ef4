import DesignTokens.Export.DocumentScss
import DesignTokens.Export.DocumentNames
import DesignTokens.Resolve.Style

/-!
# Styles of a library

The styles of a library as custom properties, utility classes, SCSS variables and SCSS mixins. A value
that is bound to a variable shows a reference to it.
-/

namespace DesignTokens

/-- What writing the styles of a library depends on. -/
structure StyleScope where
  styles : Styles
  settings : Settings
  /-- The stylesheet names of the variables that styles are bound to. -/
  names : VariableNames := fun _ => none

/-- A style with the parts its value has; each part has a suffix for its name. -/
structure StyleEntry where
  name : String
  parts : List (String × String)

/-- The title of a kind of styles. -/
def StyleKind.title (kind : StyleKind) : String :=
  Template.capitalize kind.name

namespace Styles

/-- The names of the styles of a kind. -/
def namesOf (styles : Styles) : StyleKind → List String
  | .paint => styles.paint.map (·.name)
  | .text => styles.text.map (·.name)
  | .effect => styles.effect.map (·.name)
  | .grid => styles.grid.map (·.name)

end Styles

namespace StyleScope

/-- The formatting of a style with a description. -/
def formatting (s : StyleScope) (description : String) : Except Fault Formatting :=
  s.settings.formatting.describedBy description

/-- The kinds of styles that are asked for and present, in the order of the settings. -/
def kinds (s : StyleScope) : List StyleKind :=
  s.settings.styleKinds.filter fun kind => !(s.styles.namesOf kind).isEmpty

/-! ### Values -/

/-- The value of a paint style. -/
def paintText (s : StyleScope) (style : PaintStyle) : Except Fault String := do
  style.text s.names (← s.formatting style.description)

/-- The properties of a text style. -/
def textProperties (s : StyleScope) (style : TextStyle) : Except Fault (List Property) := do
  style.properties (← s.formatting style.description)

/-- The value of an effect style. -/
def effectText (s : StyleScope) (style : EffectStyle) : Except Fault String := do
  style.text s.names (← s.formatting style.description)

/-- The styles of a kind with their values. -/
def entries (s : StyleScope) : StyleKind → Except Fault (List StyleEntry)
  | .paint => s.styles.paint.mapM fun style => do
    return ⟨style.name, [("", ← s.paintText style)]⟩
  | .text => s.styles.text.mapM fun style => do
    let properties ← s.textProperties style
    return ⟨style.name, properties.map fun (property, value) => ("-" ++ property, value)⟩
  | .effect => s.styles.effect.mapM fun style => do
    return ⟨style.name, [("", ← s.effectText style)]⟩
  | .grid => .ok (s.styles.grid.map fun style => ⟨style.name, [("", style.text)]⟩)

/-- The name of a style in stylesheets. -/
def nameOf (s : StyleScope) (styleName : String) : String :=
  styleClassName s.settings styleName

/-! ### Custom properties and SCSS variables -/

/-- The declarations of the parts of a style, given how a part is declared. -/
def entryDeclarations {α : Type} (s : StyleScope) (declare : String → String → α)
    (e : StyleEntry) : List α :=
  e.parts.map fun (suffix, value) => declare (s.nameOf e.name ++ suffix) value

/-- What stands for the styles of each kind, with something before each kind. -/
def kindItems {α : Type} (s : StyleScope) (title : StyleKind → α)
    (declare : String → String → α) : Except Fault (List α) := do
  let items ← s.kinds.mapM fun kind => do
    return title kind :: (← s.entries kind).flatMap (s.entryDeclarations declare)
  return items.flatten

/-- The title over all styles. -/
def stylesTitle : String := "═══ Styles ═══"

/-- The styles as custom properties, in sections by kind under a title. -/
def propertyItems (s : StyleScope) : Except Fault (List BodyItem) :=
  if s.kinds.isEmpty then .ok []
  else do
    let items ← s.kindItems (fun kind => .comment (kind.title ++ " Styles"))
      fun name value => BodyItem.declaration (.custom name value)
    return [.blank, .comment stylesTitle] ++ items

/-- The styles as SCSS variables, in sections by kind. -/
def scssItems (s : StyleScope) : Except Fault (List ScssItem) :=
  s.kindItems (fun kind => .comment (kind.title ++ " Styles")) ScssItem.ofCss

/-- The custom properties that styles are written as. -/
def propertyNames (s : StyleScope) : Except Fault (List String) := do
  let names ← s.kinds.mapM fun kind => do
    return (← ({ s with names := fun _ => none } : StyleScope).entries kind).flatMap
      (s.entryDeclarations fun name _ => "--" ++ name)
  return names.flatten

/-- The classes that styles are written as. -/
def classNames (s : StyleScope) : List String :=
  s.kinds.flatMap fun kind => (s.styles.namesOf kind).flatMap fun name =>
    classNamesOf kind (s.nameOf name)

/-! ### Utility classes and mixins -/

/-- The order in which classes and mixins of the wanted kinds are written. -/
def orderedKinds (s : StyleScope) : List StyleKind :=
  StyleKind.all.filter s.kinds.contains

/-- The class of a style with the given properties. -/
def classRule (s : StyleScope) (start styleName : String) (properties : List Property) : CssItem :=
  .ofDeclarations ("." ++ start ++ s.nameOf styleName) (Renderer.declarationsOf properties)

/-- The properties that a grid style sets. -/
def gridProperties (style : GridStyle) : List Property :=
  [("display", "grid"), ("grid-template-columns", style.text)]

/-- The properties that the class of an effect style sets. -/
def effectProperties (s : StyleScope) (style : EffectStyle) : Except Fault (List Property) := do
  let text ← s.effectText style
  return propertyList "box-shadow" (if style.hasShadow then some text else none) ++
    propertyList "filter" (style.filter? s.names false) ++
    propertyList "backdrop-filter" (style.filter? s.names true)

/-- The classes of the styles of a kind, each style with its own. -/
def classRules (s : StyleScope) : StyleKind → Except Fault (List (List CssItem))
  | .paint => s.styles.paint.mapM fun style => do
    let text ← s.paintText style
    return [s.classRule "" style.name [("color", text)],
      s.classRule "bg-" style.name [("background-color", text)],
      s.classRule "border-" style.name [("border-color", text)]]
  | .text => s.styles.text.mapM fun style => do
    return [s.classRule "" style.name (← s.textProperties style)]
  | .effect => s.styles.effect.mapM fun style => do
    return [s.classRule "" style.name (← s.effectProperties style)]
  | .grid => .ok (s.styles.grid.map fun style => [s.classRule "" style.name (gridProperties style)])

/-- The styles as utility classes. -/
def classItems (s : StyleScope) : Except Fault (List CssItem) := do
  let items ← s.orderedKinds.mapM fun kind => do
    let rules ← s.classRules kind
    return .comment (Renderer.classesTitle kind) :: rules.flatMap (· ++ [.blank])
  return items.flatten

/-- The mixins of the styles of a kind. -/
def mixins (s : StyleScope) : StyleKind → Except Fault (List ScssItem)
  | .paint => s.styles.paint.mapM fun style => do
    return colorMixin (s.nameOf style.name) (← s.paintText style)
  | .text => s.styles.text.mapM fun style => do
    return .mixinOfCss (s.nameOf style.name) ""
      (Renderer.declarationsOf (← s.textProperties style))
  | .effect => s.styles.effect.mapM fun style => do
    return .mixinOfCss (s.nameOf style.name) "" [⟨"box-shadow", ← s.effectText style⟩]
  | .grid => .ok <| s.styles.grid.map fun style =>
    .mixinOfCss (s.nameOf style.name) "" (Renderer.declarationsOf (gridProperties style))

/-- The styles as mixins. -/
def mixinItems (s : StyleScope) : Except Fault (List ScssItem) := do
  let items ← s.orderedKinds.mapM fun kind => do
    let mixins ← s.mixins kind
    return .comment (kind.title ++ " Style Mixins") :: mixins.flatMap fun item => [item, .blank]
  return items.flatten

end StyleScope

end DesignTokens
