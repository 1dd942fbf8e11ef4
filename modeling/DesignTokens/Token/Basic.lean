import DesignTokens.OrderedMap

/-!
# Tokens

A token has a type and a value. The value is the same for all modes or given mode by mode, and each
single value is literal or refers to another token by a dotted path.
-/

namespace DesignTokens

/-- The types of tokens. -/
inductive TokenType where
  | color
  | number
  | string
  | boolean
  | typography
  | shadow
  | grid
deriving DecidableEq, Repr

namespace TokenType

/-- All types. -/
def all : List TokenType := [color, number, string, boolean, typography, shadow, grid]

/-- The name of a type in documents. -/
def name : TokenType → String
  | color => "color"
  | number => "number"
  | string => "string"
  | boolean => "boolean"
  | typography => "typography"
  | shadow => "shadow"
  | grid => "grid"

/-- The type with a name. -/
def ofName? (s : String) : Option TokenType :=
  all.find? (·.name == s)

end TokenType

/-- The value of a typography token. -/
structure Typography where
  fontFamily : String
  fontSize : Float
  fontWeight : Float := 400.0
  fontStyle : Option String := none
  lineHeight : Option String := none
  letterSpacing : Option String := none
  textDecoration : Option String := none
  textTransform : Option String := none

/-- The value of a shadow token. -/
structure BoxShadow where
  offsetX : Float := 0.0
  offsetY : Float := 0.0
  blur : Float := 0.0
  spread : Float := 0.0
  color : String
  inner : Bool := false

/-- The directions of grid tokens. -/
inductive GridDirection where
  | columns
  | rows
  | grid
deriving DecidableEq, Repr

/-- The value of a grid token. -/
structure GridTracks where
  pattern : GridDirection
  count : Option Float := none
  sectionSize : Option Float := none
  gutterSize : Float := 0.0
  offset : Float := 0.0

/-- A literal value. -/
inductive Literal where
  | bool (value : Bool)
  | number (value : Float)
  | text (value : String)
  | typography (value : Typography)
  | shadow (value : BoxShadow)
  | grid (value : GridTracks)

/-- A single value: literal, or a reference to the token at a dotted path. -/
inductive FlatValue where
  | literal (value : Literal)
  | reference (path : String)

/-- The value of a token: one for all modes, or one per named mode. -/
inductive TokenValue where
  | flat (value : FlatValue)
  | perMode (modes : OrderedMap FlatValue)

/-- What a token keeps about the variable it comes from. -/
structure TokenOrigin where
  unit : Option String := none
  resolvedType : Option String := none
  expression : Option String := none
deriving DecidableEq, Repr

/-- A token. -/
structure Token where
  type : TokenType
  value : TokenValue
  description : Option String := none
  origin : Option TokenOrigin := none

end DesignTokens
