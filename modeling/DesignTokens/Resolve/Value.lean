import DesignTokens.Resolve.Calculation
import DesignTokens.Resolve.Passthrough

/-!
# Values of variables as text

The text of a variable's value in a mode. A numeric variable with a calculation shows its result, or
the calculation itself; an alias shows a reference to the variable it stands for; any other value is
written after the type of the variable. What does not fit the type is written after its own kind.
-/

namespace DesignTokens

/-- A text between double quotes, those inside it escaped. -/
def cssString (s : String) : String :=
  String.ofList ('"' :: s.toList.flatMap (fun c => if c = '"' then ['\\', '"'] else [c]) ++ ['"'])

/-- A value written after its own kind. -/
def VariableValue.plainText : VariableValue → Except Fault String
  | bool b => .ok (if b then "true" else "false")
  | number x => .ok (Number.plain x)
  | text s => .ok s
  | color c => c.toHex
  | aliasOf _ => .ok AliasFailure.unresolved.sentinel

namespace Scope

/-- The number a variable has in the default mode of its collection, or in its first mode when the
collection is unknown. -/
def defaultNumber? (s : Scope) (v : Variable) : Except Fault (Option Float) := do
  let modeId := match s.home? v with
    | some home => home.defaultModeId
    | none => (v.values.head?.map (·.1)).getD ""
  return (← s.numberWithUnit v modeId).1

/-- The variable that holds the base of `rem` output for a formatting. -/
def remBaseVariable? (s : Scope) (f : Formatting) : Except Fault (Option Variable) :=
  match f.remBasePath.filter (· ≠ "") with
  | some path => do return (← s.byPath path).map (·.item)
  | none => .ok ((s.remBaseVariable.filter (· ≠ "")).bind s.byId?)

/-- The formatting of a variable over a base: overlaid with the directives of its description, and
with the base of `rem` output taken from a variable when one holds a positive number for it. A
variable is not its own base. -/
def formattingOver (s : Scope) (base : Formatting) (v : Variable) : Except Fault Formatting := do
  let f ← base.describedBy v.description
  match ← s.remBaseVariable? f with
  | some holder =>
    if holder.id = v.id then return f
    match ← s.defaultNumber? holder with
    | some x => return if 0.0 < x then { f with remBase := x } else f
    | none => return f
  | none => return f

/-- The formatting of a variable. -/
def formattingOf (s : Scope) (v : Variable) : Except Fault Formatting :=
  s.formattingOver s.base v

/-- The text of a calculation in a mode: written out, or evaluated when there is nothing to warn
about. -/
def calculationText? (s : Scope) (f : Formatting) (text modeId : String) :
    Except Fault (Option String) :=
  match s.passthrough with
  | some language => .ok (some (s.passThrough language text s.remBaseVariable f.unit))
  | none => do
    match ← s.calculated? f modeId with
    | some q => return some (← { f with unit := q.unit }.number q.value)
    | none => return none

/-- The text of an alias: a reference to the variable it stands for, or a comment when that variable
is unknown or the chain is circular. -/
def aliasText (s : Scope) (modeId id : String) (origin : Option String) : String :=
  let chain := s.follow modeId id origin
  match chain.failure?, chain.target with
  | some .circular, _ => AliasFailure.circular.sentinel
  | _, some target => CssName.reference (s.cssName target)
  | _, none => AliasFailure.unresolved.sentinel

/-- The text of a value that is no alias, after the type of the variable. -/
def typedText (type : VariableType) (f : Formatting) : VariableValue → Except Fault String
  | .color c => if type = .color then f.color c else (VariableValue.color c).plainText
  | .number x => if type = .number ∧ isFiniteNumber x then f.number x else .ok (Number.plain x)
  | .text t => .ok (if type = .text then cssString t else t)
  | .bool b =>
    if type = .boolean then .ok (if b then "1" else "0") else (VariableValue.bool b).plainText
  | .aliasOf id => (VariableValue.aliasOf id).plainText

/-- The text of a value in a mode without its calculation. -/
def directText (s : Scope) (modeId : String) (type : VariableType) (f : Formatting)
    (origin : Option String) : VariableValue → Except Fault String
  | .aliasOf id => .ok (s.aliasText modeId id origin)
  | value => typedText type f value

/-- The text of a value in a mode. -/
def valueText (s : Scope) (modeId : String) (type : VariableType) (f : Formatting)
    (origin : Option String) (value : VariableValue) : Except Fault String :=
  match (if type = .number then f.calculation? else none) with
  | some text => do
    match ← s.calculationText? f text modeId with
    | some rendered => return rendered
    | none => s.directText modeId type f origin value
  | none => s.directText modeId type f origin value

/-- The text of a variable in a mode; nothing when it has no value of its own for the mode. -/
def variableText? (s : Scope) (modeId : String) (f : Except Fault Formatting) (v : Variable) :
    Except Fault (Option String) :=
  match OrderedMap.find? modeId v.values with
  | none => .ok none
  | some value => do return some (← s.valueText modeId v.type (← f) (some v.id) value)

end Scope

end DesignTokens
