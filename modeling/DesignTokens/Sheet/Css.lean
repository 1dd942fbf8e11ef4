import DesignTokens.Sheet.Basic

/-!
# CSS sheets

A sheet is a list of rules and comments. Text is made of it at the very end only, so that what a sheet
declares can be read off its items.
-/

namespace DesignTokens

/-- What stands between the braces of a rule. -/
inductive BodyItem where
  | blank
  | comment (text : String)
  | declaration (declaration : Declaration)
deriving DecidableEq, Repr

namespace BodyItem

/-- The line of an item. -/
def line (indent : String) : BodyItem → String
  | blank => ""
  | comment text => indent ++ "/* " ++ text ++ " */"
  | declaration d => indent ++ d.text

/-- The declaration of an item that is one. -/
def declaration? : BodyItem → Option Declaration
  | declaration d => some d
  | blank | comment _ => none

end BodyItem

/-- An item of a sheet. -/
inductive CssItem where
  | blank
  | comment (text : String)
  | rule (selector : String) (body : List BodyItem)
deriving DecidableEq, Repr

namespace CssItem

/-- The rule of a selector that consists of declarations only. -/
def ofDeclarations (selector : String) (declarations : List Declaration) : CssItem :=
  rule selector (declarations.map .declaration)

/-- The lines of an item. -/
def lines : CssItem → List String
  | blank => [""]
  | comment text => ["/* " ++ text ++ " */"]
  | rule selector body => [selector ++ " \x7b"] ++ body.map (·.line "  ") ++ ["\x7d"]

/-- The declarations of an item. -/
def declarations : CssItem → List Declaration
  | blank | comment _ => []
  | rule _ body => body.filterMap BodyItem.declaration?

end CssItem

/-- The text of a sheet. -/
def cssText (header : Header) (items : List CssItem) : String :=
  fileText .block header (items.flatMap CssItem.lines)

/-- The selector under which the values of a mode stand: the plain one for the default mode, and for
any other mode the plain one with the theme set, or a class of the theme. -/
def modeSelector (selector mode : String) (isDefault : Bool) : String :=
  if isDefault then selector
  else
    let theme := Text.lower mode
    s!"{selector}[data-theme=\"{theme}\"], .theme-{theme}"

end DesignTokens
