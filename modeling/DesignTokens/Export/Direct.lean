import DesignTokens.Design.Membership
import DesignTokens.Export.DirectStyles
import DesignTokens.Resolve.Value
import DesignTokens.Timestamp

/-!
# Stylesheets of libraries

The variables of a library written without a document between: an alias shows a reference to the
variable it stands for, and a variable without a value for a mode is left out there.
-/

namespace DesignTokens

/-- An export of a library. -/
structure DirectExport where
  library : Library
  settings : Settings
  sourceFile : String := ""
  styles : Option Styles := none
  generatedAt : String := fixedTimestamp

namespace DirectExport

/-- What resolving values depends on, in a language. -/
def scope (e : DirectExport) (language : CalcSyntax) : Scope :=
  Scope.ofSettings e.library e.settings (some language)

/-- The selected collections. -/
def selected (e : DirectExport) : List Collection :=
  Collection.select e.settings.selection e.library.collections

/-- The styles, when they are exported. -/
def exportedStyles (e : DirectExport) : Option Styles :=
  if e.settings.includeStyles then e.styles else none

/-- What writing styles depends on. -/
def styleScope (e : DirectExport) (language : CalcSyntax) (styles : Styles) : StyleScope :=
  let cssNames := (e.scope language).cssNames
  { styles
    settings := e.settings
    names := fun id => OrderedMap.find? id cssNames }

/-- The header of a file. -/
def header (e : DirectExport) (title : String) : Header :=
  { title, source := e.sourceFile, generated := e.generatedAt, banner := e.settings.banner }

/-- The variables of a collection in the natural order of their stylesheet names. -/
def members (e : DirectExport) (c : Collection) : Except Fault (List Variable) :=
  c.members (e.scope .css).cssName e.library.vars

/-- The stylesheet names and the values of the members of a collection that have a value for a
mode. -/
def namedValues (e : DirectExport) (language : CalcSyntax) (c : Collection) (modeId : String) :
    Except Fault (List (String × String)) := do
  let s := e.scope language
  let values ← (← e.members c).mapM fun v => do
    return (← s.variableText? modeId (s.formattingOf v) v).map fun text => (s.cssName v, text)
  return values.filterMap id

/-! ### CSS -/

/-- The declarations of a collection for a mode. -/
def declarations (e : DirectExport) (c : Collection) (modeId : String) :
    Except Fault (List Declaration) := do
  return (← e.namedValues .css c modeId).map fun (name, value) => .custom name value

/-- The section of a collection in the flat layout. -/
def flatSection (e : DirectExport) (c : Collection) : Except Fault CollectionSection := do
  return ⟨c.name, ← e.declarations c c.flatModeId⟩

/-- The rules of the modes of a collection. -/
def modeBlocks (e : DirectExport) (c : Collection) : Except Fault CollectionBlocks := do
  let blocks ← c.modes.mapM fun mode => do
    return {
      mode := mode.name
      isDefault := mode.id == c.flatModeId
      declarations := ← e.declarations c mode.id }
  return ⟨c.name, blocks⟩

/-- The custom properties in the layout that settings ask for. -/
def propertyItems (e : DirectExport) (styles : List BodyItem) : Except Fault (List CssItem) := do
  if e.settings.modeSelectors then
    return Layout.byMode e.settings (← e.selected.mapM e.modeBlocks) styles
  else return [Layout.flat e.settings (← e.selected.mapM e.flatSection) styles]

/-- The sheet of an export. -/
def cssItems (e : DirectExport) : Except Fault (List CssItem) := do
  match e.exportedStyles with
  | none => e.propertyItems []
  | some styles =>
    let scope := e.styleScope .css styles
    match e.settings.styleOutput with
    | .vars => e.propertyItems (← scope.propertyItems)
    | .classes =>
      let properties ← e.propertyItems []
      return properties ++ [.blank] ++ (← scope.classItems)

/-- What is written for CSS when there are no variables. -/
def noVariablesText : String := "/* No variables found in this file */"

/-- The stylesheet of an export. -/
def toCss (e : DirectExport) : Except Fault String := do
  if e.library.vars.isEmpty then return noVariablesText
  return cssText (e.header cssTitle) (← e.cssItems)

/-! ### SCSS -/

/-- The SCSS variables of a collection. -/
def scssSection (e : DirectExport) (c : Collection) :
    Except Fault (String × List ScssItem) := do
  let values ← e.namedValues .scss c c.flatModeId
  return (c.name, values.map fun (name, value) => ScssItem.ofCss name value)

/-- The items of the styles of an export. -/
def scssStyleItems (e : DirectExport) (styles : Styles) : Except Fault (List ScssItem) := do
  let scope := e.styleScope .scss styles
  match e.settings.styleOutput with
  | .classes => return .comment scssMixinsTitle :: (← scope.mixinItems)
  | .vars => return .comment scssVariablesTitle :: (← scope.scssItems)

/-- The SCSS sheet of an export. -/
def scssItems (e : DirectExport) : Except Fault (List ScssItem) := do
  let vars := scssSections e.settings (← e.selected.mapM e.scssSection)
  match e.exportedStyles with
  | none => return vars
  | some styles => return vars ++ [.blank] ++ (← e.scssStyleItems styles)

/-- The SCSS file of an export. -/
def toScss (e : DirectExport) : Except Fault String := do
  if e.library.vars.isEmpty then return noNamesText
  return scssText (e.header scssTitle) (← e.scssItems)

/-! ### Names -/

/-- The custom properties of a collection. -/
def collectionNames (e : DirectExport) (c : Collection) : Except Fault (List String) := do
  return (← e.members c).map fun v => "--" ++ (e.scope .css).cssName v

/-- The custom properties of the styles, and their classes. -/
def styleNames (e : DirectExport) : Except Fault (List String × List String) := do
  match e.exportedStyles with
  | none => return ([], [])
  | some styles =>
    let scope : StyleScope := { styles, settings := e.settings }
    match e.settings.styleOutput with
    | .vars => return (← scope.propertyNames, [])
    | .classes => return ([], scope.classNames)

/-- The file of names of an export. -/
def toTypeScript (e : DirectExport) : Except Fault String := do
  if e.library.vars.isEmpty then return noNamesText
  let names ← e.selected.mapM e.collectionNames
  let (properties, classes) ← e.styleNames
  return namesText (e.header namesTitle) (names.flatten ++ properties) classes

end DirectExport

end DesignTokens
