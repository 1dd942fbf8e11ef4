import DesignTokens.Color.Basic

/-!
# Hue, saturation, lightness

The passage between channels and hue (in degrees), saturation and lightness (between 0 and 1).
-/

namespace DesignTokens

/-- Hue in degrees, saturation and lightness. -/
structure Hsl (α : Type) where
  hue : α
  saturation : α
  lightness : α

open Scalar

variable {α : Type} [Scalar α]

/-- The hue of a color in sixths of a circle, given its greatest channel and the distance of that to
the least one. -/
def Rgba.hueSixths (c : Rgba α) (high delta : α) : Except Fault α := do
  if same high c.r then
    let q ← divide (c.g - c.b) delta
    return q + (if c.g < c.b then ofNat 6 else ofNat 0)
  else if same high c.g then
    let q ← divide (c.b - c.r) delta
    return q + ofNat 2
  else
    let q ← divide (c.r - c.g) delta
    return q + ofNat 4

/-- Hue, saturation and lightness of a color. A grey has hue and saturation zero. -/
def Rgba.toHsl (c : Rgba α) : Except Fault (Hsl α) := do
  let high := larger (larger c.r c.g) c.b
  let low := smaller (smaller c.r c.g) c.b
  let lightness := (high + low) / ofNat 2
  if same high low then return ⟨ofNat 0, ofNat 0, lightness⟩
  else
    let delta := high - low
    let saturation ← divide delta
      (if ratio 1 2 < lightness then ofNat 2 - high - low else high + low)
    let sixths ← c.hueSixths high delta
    return ⟨sixths * ofNat 60, saturation, lightness⟩

/-- One channel at a position on the hue circle, between its least value `p` and its greatest value
`q`. -/
def Hsl.channel (p q position : α) : α :=
  let t := remainder position 1
  if t < ratio 1 6 then p + (q - p) * ofNat 6 * t
  else if t < ratio 1 2 then q
  else if t < ratio 2 3 then p + (q - p) * (ratio 2 3 - t) * ofNat 6
  else p

/-- The color with a hue, a saturation and a lightness. -/
def Hsl.toRgba (h : Hsl α) (alpha : α) : Rgba α :=
  if same h.saturation (ofNat 0) then ⟨h.lightness, h.lightness, h.lightness, alpha⟩
  else
    let q :=
      if h.lightness < ratio 1 2 then h.lightness * (ofNat 1 + h.saturation)
      else h.lightness + h.saturation - h.lightness * h.saturation
    let p := ofNat 2 * h.lightness - q
    let turn := remainder h.hue 360 / ofNat 360
    { r := Hsl.channel p q (turn + ratio 1 3)
      g := Hsl.channel p q turn
      b := Hsl.channel p q (turn - ratio 1 3)
      a := alpha }

end DesignTokens
