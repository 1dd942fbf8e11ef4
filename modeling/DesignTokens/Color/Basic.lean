import DesignTokens.Color.Scalar
import DesignTokens.Text.Class

/-!
# Colors

A color has red, green and blue channels and an alpha, all meant to lie between 0 and 1. The byte of
a channel is its 256-step rounding; hexadecimal notation writes two digits per byte and leaves out an
alpha that is not below 1.
-/

namespace DesignTokens

/-- A color with an alpha. -/
structure Rgba (α : Type) where
  r : α
  g : α
  b : α
  a : α

/-- A color as it comes from design files. -/
abbrev Color := Rgba Float

/-- The notations colors are written in. -/
inductive ColorFormat where
  | hex
  | rgb
  | rgba
  | hsl
  | oklch
deriving DecidableEq, Repr

namespace ColorFormat

/-- All notations. -/
def all : List ColorFormat := [hex, rgb, rgba, hsl, oklch]

/-- The name of a notation in settings and directives. -/
def name : ColorFormat → String
  | hex => "hex"
  | rgb => "rgb"
  | rgba => "rgba"
  | hsl => "hsl"
  | oklch => "oklch"

/-- The notation with a name. -/
def ofName? (text : String) : Option ColorFormat :=
  all.find? (·.name == text)

end ColorFormat

namespace Rgba

open Scalar

variable {α : Type} [Scalar α]

/-- The byte of a channel: the nearest of 256 steps, held between 0 and 255. -/
def byte (channel : α) : Except Fault Nat := do
  let n ← round (channel * ofNat 255)
  return min 255 n.toNat

/-- A color in hexadecimal notation. -/
def toHex (c : Rgba α) : Except Fault String := do
  let channels := [c.r, c.g, c.b] ++ if c.a < ofNat 1 then [c.a] else []
  let bytes ← channels.mapM byte
  return String.ofList ('#' :: bytes.flatMap (Text.hexDigits 2))

end Rgba

end DesignTokens
