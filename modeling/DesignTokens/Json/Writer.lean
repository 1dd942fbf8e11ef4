import DesignTokens.Fault
import DesignTokens.Json.Basic

/-!
# Writing JSON

One writer for all JSON texts of the library. A `Style` fixes the separators, the indentation and
whether whole floating-point numbers are written without a decimal point. Characters beyond ASCII
are written as they are. Whole numbers with too many digits are not to be written; `checkDigits`
refuses them.
-/

namespace DesignTokens.Json

/-- The choices a JSON text leaves open. -/
structure Style where
  /-- Written between items that stand on one line. -/
  itemSeparator : String
  /-- Written between a key and its value. -/
  keySeparator : String
  /-- Spaces per level, when every item has a line of its own. -/
  indent : Option Nat := none
  /-- Whole floating-point numbers are written as integers. -/
  wholeAsInt : Bool := false

/-- No blanks, whole numbers without a point. -/
def Style.dense : Style := { itemSeparator := ",", keySeparator := ":", wholeAsInt := true }

/-- One line with blanks after the separators, numbers as they are. -/
def Style.spaced : Style := { itemSeparator := ", ", keySeparator := ": " }

/-- An item a line, two spaces per level. -/
def Style.indented : Style := { itemSeparator := ",", keySeparator := ": ", indent := some 2 }

/-- One character inside a JSON string. -/
def escapeChar (c : Char) : List Char :=
  if c = '"' then ['\\', '"']
  else if c = '\\' then ['\\', '\\']
  else if c = '\n' then ['\\', 'n']
  else if c = '\r' then ['\\', 'r']
  else if c = '\t' then ['\\', 't']
  else if c = '\x08' then ['\\', 'b']
  else if c = '\x0c' then ['\\', 'f']
  else if c.toNat < 0x20 then '\\' :: 'u' :: Text.hexDigits 4 c.toNat
  else [c]

/-- A text as a JSON string. -/
def stringText (s : String) : String :=
  String.ofList ('"' :: s.toList.flatMap escapeChar ++ ['"'])

/-- A floating-point number as a JSON number, or the name of a value that is none. -/
def floatText (style : Style) (x : Float) : String :=
  match style.wholeAsInt, (Exact.ofFloat x).toInt? with
  | true, some n => toString n
  | _, _ => Decimal.text "NaN" "Infinity" x

/-- The start of a line at a nesting level. -/
def lineStart (width level : Nat) : String :=
  "\n" ++ String.ofList (List.replicate (width * level) ' ')

/-- Encloses written items, each on its own line when the style has an indentation. -/
def enclose (style : Style) (level : Nat) (opening closing : String) (items : List String) :
    String :=
  if items.isEmpty then opening ++ closing
  else match style.indent with
    | none => opening ++ style.itemSeparator.intercalate items ++ closing
    | some width =>
      opening ++ lineStart width (level + 1) ++
        (style.itemSeparator ++ lineStart width (level + 1)).intercalate items ++
        lineStart width level ++ closing

mutual

/-- Writes a value at a nesting level. -/
def write (style : Style) (level : Nat) : Json → String
  | null => "null"
  | bool b => if b then "true" else "false"
  | int n => toString n
  | float x => floatText style x
  | text s => stringText s
  | list items => enclose style level "[" "]" (writeItems style (level + 1) items)
  | object fields => enclose style level "\x7b" "\x7d" (writeFields style (level + 1) fields)

/-- Writes the items of a list. -/
def writeItems (style : Style) (level : Nat) : List Json → List String
  | [] => []
  | item :: rest => write style level item :: writeItems style level rest

/-- Writes the fields of an object. -/
def writeFields (style : Style) (level : Nat) : List (String × Json) → List String
  | [] => []
  | (key, value) :: rest =>
    (stringText key ++ style.keySeparator ++ write style level value) ::
      writeFields style level rest

end

/-! ### What can be written -/

mutual

/-- No whole number in the value has too many digits. -/
def isWritable : Json → Bool
  | int n => (Decimal.digitsOf n.natAbs).length ≤ Decimal.maxDigits
  | list items => areItemsWritable items
  | object fields => areFieldsWritable fields
  | _ => true

/-- No whole number in the items has too many digits. -/
def areItemsWritable : List Json → Bool
  | [] => true
  | item :: rest => isWritable item && areItemsWritable rest

/-- No whole number in the values of the fields has too many digits. -/
def areFieldsWritable : List (String × Json) → Bool
  | [] => true
  | (_, value) :: rest => isWritable value && areFieldsWritable rest

end

/-- Refuses a value that cannot be written. -/
def checkDigits (value : Json) : Except Fault Unit :=
  if value.isWritable then .ok () else .error (.number .tooManyDigits)

/-- The text of a value in a style. -/
def render (style : Style) (value : Json) : String :=
  write style 0 value

end DesignTokens.Json
