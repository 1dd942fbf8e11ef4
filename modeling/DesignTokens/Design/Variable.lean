import DesignTokens.Color.Basic
import DesignTokens.OrderedMap

/-!
# Variables and collections

The records of a design file that tokens are made from. A variable belongs to a collection and has a
value for each mode of it; a value is a boolean, a number, a text, a color, or an alias of another
variable.
-/

namespace DesignTokens

/-- The types a variable can have. -/
inductive VariableType where
  | color
  | number
  | text
  | boolean
deriving DecidableEq, Repr

namespace VariableType

/-- All types. -/
def all : List VariableType := [color, number, text, boolean]

/-- The name of a type in design files. -/
def name : VariableType → String
  | color => "COLOR"
  | number => "FLOAT"
  | text => "STRING"
  | boolean => "BOOLEAN"

/-- The type with a name. -/
def ofName? (s : String) : Option VariableType :=
  all.find? (·.name == s)

end VariableType

/-- A value of a variable in one mode. -/
inductive VariableValue where
  | bool (value : Bool)
  | number (value : Float)
  | text (value : String)
  | color (value : Color)
  /-- The value of the variable with an id. -/
  | aliasOf (id : String)

/-- A variable. -/
structure Variable where
  id : String
  /-- The name, its segments divided by slashes. -/
  name : String
  type : VariableType
  /-- The values by the ids of modes. -/
  values : OrderedMap VariableValue := []
  collectionId : String
  description : String := ""
  /-- The names used in code, by platform. -/
  codeSyntax : OrderedMap String := []

/-- A variant of a collection, such as light and dark. -/
structure Mode where
  id : String
  name : String
deriving DecidableEq, Repr

/-- A group of variables with common modes. -/
structure Collection where
  id : String
  name : String
  modes : List Mode := []
  defaultModeId : String
deriving DecidableEq, Repr

namespace Collection

/-- The mode with the default id, or the first one when no mode has it. -/
def defaultMode? (c : Collection) : Option Mode :=
  c.modes.find? (·.id == c.defaultModeId) <|> c.modes.head?

/-- The name of the mode with an id. -/
def modeName? (c : Collection) (modeId : String) : Option String :=
  (c.modes.find? (·.id == modeId)).map (·.name)

/-- The collections whose id or name is selected; all of them when nothing is selected. -/
def select (selected : List String) (collections : List Collection) : List Collection :=
  if selected.isEmpty then collections
  else collections.filter fun c => selected.contains c.id || selected.contains c.name

end Collection

/-- The value of the last entry with a key, as later records replace earlier ones with the same
id. -/
def lastWith? (id : α → String) (key : String) (items : List α) : Option α :=
  items.reverse.find? fun item => id item == key

end DesignTokens
