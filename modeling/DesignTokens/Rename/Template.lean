import DesignTokens.Decimal.Text
import DesignTokens.Rename.Pattern
import DesignTokens.Text.Scan

/-!
# Rename rules and their templates

A template is a text with references to captures by their number: `$1`, `${1}`, and with a casing
`$1:camel` or `${1:camel}`. A reference to a capture that does not exist stands for nothing, and a
casing that does not exist changes nothing. A number that is written with too many digits cannot be
read; a template with such a number gives no names.

A rule renames the names its pattern describes. The first enabled rule with a valid pattern that
describes a name decides.
-/

namespace DesignTokens

/-- A reference of a template. -/
structure CaptureRef where
  /-- The number of the capture, the first one being 1. -/
  index : Nat
  casing : Option String := none
  /-- With how many digits the number is written. -/
  digits : Nat

/-- A part of a template. -/
inductive TemplatePart where
  | plain (c : Char)
  | reference (ref : CaptureRef)

namespace Template

open Text

/-! ### Casings -/

/-- The characters that divide the words of a name. -/
def dividesWords (c : Char) : Bool :=
  c == '/' || c == '-' || c == '_' || isSpace c

/-- The words of a name. -/
def words (value : String) : List String :=
  ((value.toList.splitOnP dividesWords).filter (!·.isEmpty)).map String.ofList

/-- A word with its first letter raised and the others lowered. -/
def capitalize (word : String) : String :=
  let cs := word.toList
  upper (String.ofList (cs.take 1)) ++ lower (String.ofList (cs.drop 1))

/-- The first word lowered and the others capitalized. -/
def camel : List String → String
  | [] => ""
  | first :: rest => lower first ++ String.join (rest.map capitalize)

/-- A value in a casing; the name of the casing may be in either case. -/
def applyCasing (value : String) (casing : Option String) : String :=
  match casing with
  | none => value
  | some casing =>
    let name := lower casing
    if value = "" then value
    else if name = "kebab" then "-".intercalate ((words value).map lower)
    else if name = "snake" then "_".intercalate ((words value).map lower)
    else if name = "camel" then camel (words value)
    else if name = "pascal" then String.join ((words value).map capitalize)
    else if name = "lower" then lower value
    else if name = "upper" then upper value
    else value

/-! ### References -/

/-- A casing after a colon, and how many characters it takes with the colon. -/
def casing? (cs : List Char) : Option (String × Nat) := do
  let (word, _) ← run? isWord (← afterChar? ':' cs)
  return (String.ofList word, word.length + 1)

/-- The number and the casing of a reference, and how many characters they take. The number may have
any number of digits; whether it can be read shows in `isReadable`. -/
def numbered? (cs : List Char) : Option (CaptureRef × Nat) := do
  let (digits, rest) ← run? isDecimal cs
  let index := Decimal.natOfDigits digits
  match casing? rest with
  | some (casing, length) => return (⟨index, some casing, digits.length⟩, digits.length + length)
  | none => return (⟨index, none, digits.length⟩, digits.length)

/-- The reference after a dollar sign, and how many characters it takes. -/
def reference? (cs : List Char) : Option (CaptureRef × Nat) :=
  match afterChar? '\x7b' cs with
  | some inner => do
    let (ref, length) ← numbered? inner
    let _ ← afterChar? '\x7d' (inner.drop length)
    return (ref, length + 2)
  | none => numbered? cs

/-- The parts of a template, in order. -/
def parts : List Char → List TemplatePart
  | [] => []
  | c :: rest =>
    if c = '$' then match reference? rest with
      | some (ref, length) => .reference ref :: parts (rest.drop length)
      | none => .plain c :: parts rest
    else .plain c :: parts rest
termination_by cs => cs.length
decreasing_by
  · simp only [List.length_drop, List.length_cons]
    omega
  · simp
  · simp

/-- The number of every reference has few enough digits to be read. -/
def isReadable (template : String) : Bool :=
  (parts template.toList).all fun
    | .plain _ => true
    | .reference ref => ref.digits ≤ Decimal.maxDigits

/-- What a reference stands for. -/
def valueOf (captures : List String) (ref : CaptureRef) : String :=
  if ref.index = 0 then ""
  else applyCasing (captures[ref.index - 1]?.getD "") ref.casing

/-- What a part stands for. -/
def textOf (captures : List String) : TemplatePart → List Char
  | .plain c => [c]
  | .reference ref => (valueOf captures ref).toList

/-- The characters of a template with its references replaced. -/
def expand (captures : List String) (cs : List Char) : List Char :=
  (parts cs).flatMap (textOf captures)

/-- A readable template with its references replaced. -/
def render (template : String) (captures : List String) : String :=
  String.ofList (expand captures template.toList)

end Template

/-! ### Rules -/

/-- A rename rule. -/
structure RenameRule where
  id : String := ""
  pattern : String
  /-- The template of the new name. -/
  replacement : String
  enabled : Bool := true
deriving DecidableEq, Repr

namespace RenameRule

/-- The new name a rule gives a name, if the rule is enabled and describes it. -/
def rename? (rule : RenameRule) (name : String) : Option String :=
  if rule.enabled then
    match Glob.captures rule.pattern name with
    | .ok (some captures) => some (Template.render rule.replacement captures)
    | _ => none
  else none

/-- The first rule that describes a name, and the new name it gives. -/
def first? (rules : List RenameRule) (name : String) : Option (RenameRule × String) :=
  rules.findSome? fun rule => (rule.rename? name).map fun renamed => (rule, renamed)

/-- Refuses a rule whose template cannot be read. -/
def checkTemplate (rule : RenameRule) : Except Fault Unit :=
  if Template.isReadable rule.replacement then .ok () else .error (.number .tooManyDigits)

end RenameRule

end DesignTokens
