import DesignTokens.Export.DocumentCss
import DesignTokens.Sheet.Basic
import DesignTokens.Token.Compact
import DesignTokens.Token.Encoding
import DesignTokens.Json.Writer

/-!
# Names and data of documents

The names of the custom properties and classes of a document, and the document itself as JSON. The
names are listed in a TypeScript file as unions of string literals.
-/

namespace DesignTokens

/-! ### Files of names -/

/-- The lines of a union type. -/
def unionLines (typeName : String) (members : List String) : List String :=
  [s!"export type {typeName} ="] ++ members.map (fun m => s!"  | \"{m}\"") ++ [";"]

/-- The declaration that lets style objects have the custom properties as keys. -/
def propertiesAugmentation : List String :=
  ["declare module 'csstype' \x7b",
    "  interface Properties \x7b",
    "    [key: CSSVariableName]: string | number;",
    "  \x7d",
    "\x7d"]

/-- What is written when there are no names. -/
def noNamesText : String := "// No variables found in this file"

/-- The title of a file of names. -/
def namesTitle : String := "Auto-generated TypeScript types for CSS Custom Properties"

/-- The text of a file of names; without the name of any custom property it is a comment. -/
def namesText (header : Header) (properties classes : List String) : String :=
  if properties.isEmpty then noNamesText
  else
    fileText .block header <|
      unionLines "CSSVariableName" properties ++ [""] ++ propertiesAugmentation ++
        (if classes.isEmpty then [] else [""] ++ unionLines "StyleClassName" classes)

/-! ### Names of documents -/

/-- The classes of a style: paints have one for each property they color. -/
def classNamesOf (kind : StyleKind) (name : String) : List String :=
  match kind with
  | .paint => [name, "bg-" ++ name, "border-" ++ name]
  | .text | .effect | .grid => [name]

namespace Document

/-- The names of the custom properties of a collection in natural order. -/
def collectionNames (s : Settings) (collection : String) (tree : TokenTree) :
    Except Fault (List String) :=
  NaturalOrder.sortBy id <|
    (tree.walk [collection]).map fun (path, _) => s.cssName ("/".intercalate path)

/-- The custom properties of a document. -/
def propertyNames (d : Document) (s : Settings) : Except Fault (List String) := do
  let names ← (d.selected s).mapM fun (name, tree) => collectionNames s name tree
  let styles := match s.styleOutput with
    | .classes => []
    | .vars => (d.styleTokens s).map fun (kind, path, _) =>
      s.cssName ("/".intercalate (stylePath kind path))
  return (names.flatten ++ styles).map ("--" ++ ·)

/-- The utility classes of a document. -/
def classNames (d : Document) (s : Settings) : List String :=
  match s.styleOutput with
  | .vars => []
  | .classes => (d.styleTokens s).flatMap fun (kind, path, _) =>
    classNamesOf kind (styleClassName s ("/".intercalate path))

/-- The file of names of a document. -/
def toTypeScript (d : Document) (s : Settings) : Except Fault String := do
  return namesText (d.header s namesTitle) (← d.propertyNames s) (d.classNames s)

/-- A document as JSON text, made compact when settings ask for it. -/
def toJsonText (d : Document) (s : Settings) : String :=
  let json := d.toJson
  (if s.compactJson then json.compact else json).render { Json.Style.indented with wholeAsInt := true }

end Document

end DesignTokens
