import DesignTokens.OrderedMap
import DesignTokens.Decimal.Text
import DesignTokens.Text.Quoted

/-!
# JSON values

Plain data as it comes from JSON, YAML and TOML files. Whole numbers and floating-point numbers are
kept apart, and the fields of an object keep their order.
-/

namespace DesignTokens

/-- A JSON value. -/
inductive Json where
  | null
  | bool (value : Bool)
  | int (value : Int)
  | float (value : Float)
  | text (value : String)
  | list (items : List Json)
  | object (fields : List (String × Json))

namespace Json

/-- The value of a field, when the value is an object that has it. -/
def field? (key : String) : Json → Option Json
  | object fields => OrderedMap.find? key fields
  | _ => none

/-- The value counts as present: neither null, false, zero nor empty. -/
def isTruthy : Json → Bool
  | null => false
  | bool b => b
  | int n => n != 0
  | float x => x != 0.0
  | text s => s != ""
  | list items => !items.isEmpty
  | object fields => !fields.isEmpty

/-- A floating-point number as plain data; a whole number is kept as an integer. -/
def number (x : Float) : Json :=
  match (Exact.ofFloat x).toInt? with
  | some n => int n
  | none => float x

/-- Stands for a value that is no plain data, such as a date: a list that no reader accepts. -/
def foreign : Json := list [null]

/-- The value when it is a text. -/
def text? : Json → Option String
  | text s => some s
  | _ => none

/-! ### Display form -/

mutual

/-- A value as messages show it, with quoted texts and names for the three constants. -/
def display : Json → String
  | null => "None"
  | bool b => if b then "True" else "False"
  | int n => toString n
  | float x => Decimal.shortText x
  | text s => Text.quoted s
  | list items => "[" ++ ", ".intercalate (displayItems items) ++ "]"
  | object fields => "\x7b" ++ ", ".intercalate (displayFields fields) ++ "\x7d"

/-- The display forms of the items of a list. -/
def displayItems : List Json → List String
  | [] => []
  | item :: rest => display item :: displayItems rest

/-- The display forms of the fields of an object. -/
def displayFields : List (String × Json) → List String
  | [] => []
  | (key, value) :: rest => (Text.quoted key ++ ": " ++ display value) :: displayFields rest

end

/-- A value as text: a text stands for itself, anything else is displayed. -/
def asText : Json → String
  | text s => s
  | value => display value

end Json

end DesignTokens
