import DesignTokens.Rename.Template

/-!
# Names in stylesheets

The name under which a variable or a style appears in a stylesheet: by a rename rule, or by the
default transform, which keeps letters and digits in lower case and puts single hyphens between
words.
-/

namespace DesignTokens

namespace CssName

/-! ### The default transform -/

/-- A letter or a digit of ASCII. -/
def isNameChar (c : Char) : Bool :=
  c.isAlphanum

/-- A text with a hyphen wherever a capital letter follows a small one. -/
def divideCamel : List Char → List Char
  | [] => []
  | [c] => [c]
  | c :: d :: rest =>
    if c.isLower && d.isUpper then c :: '-' :: divideCamel (d :: rest)
    else c :: divideCamel (d :: rest)

/-- The words of a text: its runs of letters and digits, divided where a capital letter follows a
small one. -/
def words (cs : List Char) : List (List Char) :=
  ((divideCamel cs).splitOnP (!isNameChar ·)).filter (!·.isEmpty)

/-- The words of a name in lower case with hyphens between them. -/
def ofText (name : String) : String :=
  String.ofList (['-'].intercalate ((words name.toList).map (·.map Char.toLower)))

/-- A name after a prefix that is not empty. -/
def withPrefix (namePrefix name : String) : String :=
  if namePrefix = "" then name else namePrefix ++ "-" ++ name

/-! ### Names by rules -/

/-- The casings of names. -/
inductive Casing where
  | kebab
  | snake
  | camel
  | pascal
  | lower
  | upper
deriving DecidableEq, Repr

/-- All casings. -/
def Casing.all : List Casing := [kebab, snake, camel, pascal, lower, upper]

/-- The name of a casing in settings and templates. -/
def Casing.name : Casing → String
  | kebab => "kebab"
  | snake => "snake"
  | camel => "camel"
  | pascal => "pascal"
  | lower => "lower"
  | upper => "upper"

/-- The casing with a name. -/
def Casing.ofName? (text : String) : Option Casing :=
  Casing.all.find? (·.name == text)

/-- The id of the rule that renames all names no other rule describes. -/
def defaultRuleId : String := "__default__"

/-- The name given to a raw name: by the first rule that describes it, unless the new name is blank,
and by the default transform otherwise. The prefix stands in front, except that the default rule has
it in its template. The template of the rule is a readable one; `RenameRule.checkTemplate` refuses
others. -/
def format (rules : List RenameRule) (namePrefix rawName : String) : String :=
  match RenameRule.first? rules rawName with
  | some (rule, renamed) =>
    if Text.isBlank renamed then withPrefix namePrefix (ofText rawName)
    else if rule.id = defaultRuleId then renamed
    else withPrefix namePrefix renamed
  | none => withPrefix namePrefix (ofText rawName)

/-- A reference to the first capture in a casing. -/
def captured (casing : Casing) : String :=
  let name := casing.name
  s!"$\x7b1:{name}\x7d"

/-- The template of the default rule: the prefix in the way the casing asks for, then the name. -/
def defaultTemplate (namePrefix : String) (casing : Casing) : String :=
  if namePrefix = "" then captured casing
  else match casing with
    | .kebab => namePrefix ++ "-" ++ captured .kebab
    | .snake => namePrefix ++ "_" ++ captured .snake
    | .camel => namePrefix ++ captured .pascal
    | .pascal => Template.capitalize namePrefix ++ captured .pascal
    | .lower => Text.lower namePrefix ++ "-" ++ captured .kebab
    | .upper => Text.upper namePrefix ++ "_" ++ captured .snake

/-- The rule that renames every name. -/
def defaultRule (namePrefix : String) (casing : Casing) : RenameRule :=
  { id := defaultRuleId, pattern := "**", replacement := defaultTemplate namePrefix casing }

/-- Rules followed by the default rule. -/
def rulesWithDefault (rules : List RenameRule) (namePrefix : String) (casing : Casing) :
    List RenameRule :=
  rules.filter (·.id ≠ defaultRuleId) ++ [defaultRule namePrefix casing]

/-! ### Names written by hand -/

/-- The name in a text that is a custom property or a reference to one. -/
def ofCodeSyntax (text : String) : String :=
  let cs := Text.trim text.toList
  let inner := match "var(".toList.isPrefixOf? cs with
    | some rest => if cs.getLast? = some ')' then Text.trim rest.dropLast else cs
    | none => cs
  String.ofList (("--".toList.isPrefixOf? inner).getD inner)

/-- The reference to the custom property of a name. -/
def reference (name : String) : String :=
  s!"var(--{name})"

end CssName

end DesignTokens
