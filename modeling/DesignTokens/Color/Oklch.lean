import DesignTokens.Color.Basic

/-!
# Oklch

The passage between channels and perceptual lightness, chroma and hue: gamma decoding, cone
responses, cube roots, the opponent axes and their polar form. Only this module leaves the four
operations, so it is stated for floating-point numbers; other numbers may bring their own `Polar`.
-/

namespace DesignTokens

/-- Lightness, chroma and hue in degrees. -/
structure Oklch (α : Type) where
  lightness : α
  chroma : α
  hue : α

/-- Numbers for which the polar form of a color is known. -/
class Polar (α : Type) [Scalar α] where
  toOklch : Rgba α → Except Fault (Oklch α)
  ofOklch : Oklch α → (alpha : α) → Except Fault (Rgba α)

namespace Oklch

/-- A power whose overflow from a finite base is a fault. -/
def power (base exponent : Float) : Except Fault Float :=
  let p := Float.pow base exponent
  if p.isInf && base.isFinite then .error (.number .powerOverflow) else .ok p

/-- The linear intensity of a gamma-encoded channel. -/
def toLinear (c : Float) : Except Fault Float :=
  if c ≤ 0.04045 then .ok (c / 12.92) else power ((c + 0.055) / 1.055) 2.4

/-- The gamma-encoded channel of a linear intensity. -/
def ofLinear (c : Float) : Except Fault Float := do
  if c ≤ 0.0031308 then return 12.92 * c
  let p ← power c (1 / 2.4)
  return 1.055 * p - 0.055

/-- Half a turn in radians. -/
def pi : Float := 3.141592653589793

/-- The polar form of a color. -/
def ofRgba (color : Rgba Float) : Except Fault (Oklch Float) := do
  let r ← toLinear color.r
  let g ← toLinear color.g
  let b ← toLinear color.b
  let l := Float.cbrt (0.4122214708 * r + 0.5363325363 * g + 0.0514459929 * b)
  let m := Float.cbrt (0.2119034982 * r + 0.6806995451 * g + 0.1073969566 * b)
  let s := Float.cbrt (0.0883024619 * r + 0.2817188376 * g + 0.6299787005 * b)
  let lightness := 0.2104542553 * l + 0.793617785 * m - 0.0040720468 * s
  let x := 1.9779984951 * l - 2.428592205 * m + 0.4505937099 * s
  let y := 0.0259040371 * l + 0.7827717662 * m - 0.808675766 * s
  let xx ← power x 2
  let yy ← power y 2
  let hue := Float.atan2 y x * (180 / pi)
  return ⟨lightness, Float.sqrt (xx + yy), if hue < 0 then hue + 360 else hue⟩

/-- The cosine and the sine of an angle in degrees. -/
def direction (degrees : Float) : Except Fault (Float × Float) :=
  let angle := degrees * (pi / 180)
  if angle.isInf then .error (.number .infiniteAngle) else .ok (Float.cos angle, Float.sin angle)

/-- The color with a polar form; its channels are held between 0 and 1. -/
def toRgba (c : Oklch Float) (alpha : Float) : Except Fault (Rgba Float) := do
  let (cosine, sine) ← direction c.hue
  let x := c.chroma * cosine
  let y := c.chroma * sine
  let l ← power (c.lightness + 0.3963377774 * x + 0.2158037573 * y) 3
  let m ← power (c.lightness - 0.1055613458 * x - 0.0638541728 * y) 3
  let s ← power (c.lightness - 0.0894841775 * x - 1.2914855480 * y) 3
  let r ← ofLinear (4.0767416621 * l - 3.3077115913 * m + 0.2309699292 * s)
  let g ← ofLinear (-1.2684380046 * l + 2.6097574011 * m - 0.3413193965 * s)
  let b ← ofLinear (-0.0041960863 * l - 0.7034186147 * m + 1.7076147010 * s)
  return ⟨Scalar.clampUnit r, Scalar.clampUnit g, Scalar.clampUnit b, alpha⟩

end Oklch

instance : Polar Float where
  toOklch := Oklch.ofRgba
  ofOklch := Oklch.toRgba

end DesignTokens
