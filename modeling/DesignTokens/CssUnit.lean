/-!
# Units

The units a number can be written in.
-/

namespace DesignTokens

/-- A unit of length or time, a percentage, or no unit. -/
inductive CssUnit where
  | none
  | px
  | rem
  | em
  | percent
  | ms
  | s
deriving DecidableEq, Repr

namespace CssUnit

/-- All units. -/
def all : List CssUnit := [none, px, rem, em, percent, ms, s]

/-- The name of a unit in settings and directives. -/
def name : CssUnit → String
  | none => "none"
  | px => "px"
  | rem => "rem"
  | em => "em"
  | percent => "%"
  | ms => "ms"
  | s => "s"

/-- The unit with a name. -/
def ofName? (text : String) : Option CssUnit :=
  all.find? (·.name == text)

/-- What is written after a number. -/
def suffix : CssUnit → String
  | none => ""
  | unit => unit.name

end CssUnit

end DesignTokens
