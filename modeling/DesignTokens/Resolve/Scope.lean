import DesignTokens.Design.Variable
import DesignTokens.Expr.Reference
import DesignTokens.Fault
import DesignTokens.Name.Format
import DesignTokens.Settings

/-!
# Libraries and scopes of resolution

The variables and collections of a design file together, and the ways to find a variable in them: by
its id, or by a path that names it alone or after its collection.

A scope is a library together with what resolving its values depends on: the names its variables get,
how calculations are written, and the formatting that holds without directives.
-/

namespace DesignTokens

/-! ### Libraries -/

/-- The variables and collections of a design file. -/
structure Library where
  vars : List Variable
  collections : List Collection

/-- A variable and its collection. -/
structure LibraryEntry where
  item : Variable
  home : Collection

namespace Library

/-- The variable with an id; of several the last one. -/
def byId? (l : Library) (id : String) : Option Variable :=
  lastWith? Variable.id id l.vars

/-- The collection with an id; of several the last one. -/
def collection? (l : Library) (id : String) : Option Collection :=
  lastWith? Collection.id id l.collections

/-- The collection a variable belongs to. -/
def home? (l : Library) (v : Variable) : Option Collection :=
  l.collection? v.collectionId

/-- The variables whose collection is known. -/
def entries (l : Library) : List LibraryEntry :=
  l.vars.filterMap fun v => (l.home? v).map fun home => ⟨v, home⟩

/-- What stands before and after the first slash of a path, when there is something after it. -/
def divide? (path : String) : Option (String × String) :=
  let cs := path.toList
  let head := cs.takeWhile (· != '/')
  let rest := cs.drop (head.length + 1)
  if rest.isEmpty then none else some (String.ofList head, String.ofList rest)

/-- The first variable named by a path that begins with the name of its collection. -/
def byFullPath? (l : Library) (path : String) : Option LibraryEntry :=
  match divide? path with
  | some (head, rest) => l.entries.find? fun e => e.home.name == head && e.item.name == rest
  | none => none

/-- The variables whose name is the path. -/
def byName (l : Library) (path : String) : List LibraryEntry :=
  l.entries.filter fun e => e.item.name == path

/-- The variable a path names: with the name of its collection in front, or alone. A path that is
the name of several variables is ambiguous. -/
def byPath (l : Library) (path : String) : Except Fault (Option LibraryEntry) :=
  match l.byFullPath? path with
  | some entry => .ok (some entry)
  | none => match l.byName path with
    | [] => .ok none
    | [entry] => .ok (some entry)
    | found => .error (.ambiguousReference path (found.map (·.home.name)))

/-- The value of a variable in a mode. A variable without a value for the mode, as happens when an
alias leads into another collection, has the value of its collection's default mode. -/
def valueInMode? (l : Library) (v : Variable) (modeId : String) : Option VariableValue :=
  match OrderedMap.find? modeId v.values with
  | some value => some value
  | none => (l.home? v).bind fun home => OrderedMap.find? home.defaultModeId v.values

end Library

/-! ### Scopes -/

/-- The name of a variable in stylesheets: the one written by hand for the web, or the one formatted
from its raw name. -/
def Variable.cssName (rules : List RenameRule) (namePrefix : String) (v : Variable) : String :=
  match OrderedMap.find? "WEB" v.codeSyntax with
  | some code => if code = "" then CssName.format rules namePrefix v.name
    else CssName.ofCodeSyntax code
  | none => CssName.format rules namePrefix v.name

/-- The languages calculations can be written out in. -/
inductive CalcSyntax where
  | css
  | scss
deriving DecidableEq, Repr

/-- The most links of a chain of aliases after the first one. -/
def maxAliasDepth : Nat := 10

/-- A library with the options of resolving its values. -/
structure Scope extends Library where
  namePrefix : String := ""
  rules : List RenameRule := []
  /-- The language calculations are written out in; without one they are evaluated. -/
  passthrough : Option CalcSyntax := none
  /-- The id of the variable that holds the base of `rem` output. -/
  remBaseVariable : Option String := none
  /-- How many links a chain of aliases may have after the first one; none if negative. -/
  maxDepth : Int := maxAliasDepth
  /-- The formatting of a variable without directives. -/
  base : Formatting := {}

namespace Scope

/-- The scope of a library under settings, for output in a language. -/
def ofSettings (library : Library) (settings : Settings) (output : Option CalcSyntax := none) :
    Scope :=
  { library with
    namePrefix := settings.namePrefix
    rules := settings.rules
    passthrough := if settings.calcExpressions then output else none
    remBaseVariable := settings.remBaseVariable
    base := settings.formatting }

/-- The name of a variable in stylesheets. -/
def cssName (s : Scope) (v : Variable) : String :=
  v.cssName s.rules s.namePrefix

/-- The custom properties of the variables with a known collection; of variables with one property
the last one has it. -/
def properties (s : Scope) : OrderedMap LibraryEntry :=
  OrderedMap.ofList (s.entries.map fun e => ("--" ++ s.cssName e.item, e))

/-- The stylesheet names of all variables by their ids. -/
def cssNames (s : Scope) : OrderedMap String :=
  OrderedMap.ofList (s.vars.map fun v => (v.id, s.cssName v))

/-- The custom property in the first reference to one that a text holds. -/
def propertyIn? (text : String) : Option String :=
  match referencesOf Reference.property? text with
  | .property raw :: _ => some ("--" ++ String.ofList raw)
  | _ => none

/-- The variable behind a reference to a custom property. -/
def byProperty? (s : Scope) (reference : String) : Option LibraryEntry :=
  (propertyIn? reference).bind fun property => OrderedMap.find? property s.properties

/-- The variable a reference of a calculation names. -/
def byReference (s : Scope) (r : Reference) : Except Fault (Option LibraryEntry) :=
  match r with
  | .path raw => s.byPath (Reference.pathText raw)
  | .property _ => .ok (s.byProperty? r.text)

end Scope

end DesignTokens
