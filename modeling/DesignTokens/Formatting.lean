import DesignTokens.Color.Text
import DesignTokens.Directive
import DesignTokens.Number

/-!
# Formatting of one token

How the values of one token are written: the settings that hold for all tokens, overlaid with the
directives of the token's description.
-/

namespace DesignTokens

/-- How the values of one token are written. -/
structure Formatting where
  unit : CssUnit := .px
  /-- How many pixels one `rem` has. -/
  remBase : Float := 16.0
  colorFormat : ColorFormat := .hex
  /-- The calculation that gives the value. -/
  expression : Option String := none
  /-- Decimal places of numbers. -/
  precision : Option Int := none
  /-- The path of the variable that holds the base of `rem` output. -/
  remBasePath : Option String := none

namespace Formatting

/-- A formatting overlaid with directives; what they leave out stays as it is. -/
def overlay (f : Formatting) (d : Directives) : Formatting :=
  { unit := d.unit.getD f.unit
    remBase := (d.remBase.map Float.ofNat).getD f.remBase
    colorFormat := d.colorFormat.getD f.colorFormat
    expression := d.expression <|> f.expression
    precision := (d.precision.map Int.ofNat) <|> f.precision
    remBasePath := d.remBasePath <|> f.remBasePath }

/-- A formatting overlaid with the directives of a description. -/
def describedBy (f : Formatting) (description : String) : Except Fault Formatting := do
  return f.overlay (← Directives.parse description)

/-- The calculation, when there is one that is not empty. -/
def calculation? (f : Formatting) : Option String :=
  f.expression.filter (· ≠ "")

/-- A number of pixels as the formatting asks for. -/
def number (f : Formatting) (x : Float) : Except Fault String :=
  Number.withUnit f.unit f.remBase f.precision x

/-- A color as the formatting asks for. -/
def color (f : Formatting) (c : Color) : Except Fault String :=
  c.render f.colorFormat

end Formatting

end DesignTokens
