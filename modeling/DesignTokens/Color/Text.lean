import DesignTokens.Color.Hsl
import DesignTokens.Color.Oklch
import DesignTokens.Text.Scan

/-!
# Colors as text

Writing a color in one of the notations, and reading every notation back. A text is read in two
steps: its form, with the numerals still as written, and then the color these numerals denote. A
text of the right form whose numerals are malformed is a fault; a text of no form is no color.
-/

namespace DesignTokens

open Scalar

variable {α : Type} [Scalar α]

/-! ### Writing -/

/-- A function call of a notation; with an alpha below 1 the name gains an `a`, and the alpha follows
with three decimal places. -/
def callText (name : String) (arguments : List String) (alpha : α) : String :=
  if alpha < ofNat 1 then
    name ++ "a(" ++ ", ".intercalate (arguments ++ [fixedText 3 alpha]) ++ ")"
  else name ++ "(" ++ ", ".intercalate arguments ++ ")"

/-- A color with its channels as bytes. -/
def Rgba.toRgbText (c : Rgba α) : Except Fault String := do
  let bytes ← [c.r, c.g, c.b].mapM Rgba.byte
  return callText "rgb" (bytes.map toString) c.a

/-- A color by whole degrees of hue and whole percents of saturation and lightness. -/
def Rgba.toHslText (c : Rgba α) : Except Fault String := do
  let hsl ← c.toHsl
  let hue ← round hsl.hue
  let saturation ← round (hsl.saturation * ofNat 100)
  let lightness ← round (hsl.lightness * ofNat 100)
  return callText "hsl" [toString hue, s!"{saturation}%", s!"{lightness}%"] c.a

/-- A color by its polar form. -/
def Rgba.toOklchText [Polar α] (c : Rgba α) : Except Fault String := do
  let polar ← Polar.toOklch c
  let lightness := fixedText 2 (polar.lightness * ofNat 100)
  let chroma := fixedText 4 polar.chroma
  let hue := fixedText 2 polar.hue
  let alpha := fixedText 3 c.a
  if c.a < ofNat 1 then return s!"oklch({lightness}% {chroma} {hue} / {alpha})"
  return s!"oklch({lightness}% {chroma} {hue})"

/-- A color in a notation. -/
def Rgba.render [Polar α] (format : ColorFormat) (c : Rgba α) : Except Fault String :=
  match format with
  | .hex => c.toHex
  | .rgb => c.toRgbText
  | .rgba => c.toRgbText
  | .hsl => c.toHslText
  | .oklch => c.toOklchText

/-! ### Forms -/

/-- The form of a color text, its numerals as written. -/
inductive ColorText where
  | hex (digits : List Nat)
  | rgb (r g b : List Char) (alpha : Option (List Char))
  | hsl (hue saturation lightness : List Char) (alpha : Option (List Char))
  | oklch (lightness chroma hue : List Char) (alpha : Option (List Char))

namespace ColorText

/-- A character of a numeral: a digit or a point. -/
def isNumeralChar (c : Char) : Bool :=
  Text.isDecimal c || c == '.'

/-- A numeral with white space around it, and the rest. -/
def spacedNumeral? (cs : List Char) : Option (List Char × List Char) := do
  let (numeral, rest) ← Text.run? isNumeralChar (Text.skipSpaces cs)
  return (numeral, Text.skipSpaces rest)

/-- A numeral followed by a percent sign, white space around both, and the rest. -/
def percentage? (cs : List Char) : Option (List Char × List Char) := do
  let (numeral, rest) ← Text.run? isNumeralChar (Text.skipSpaces cs)
  let rest ← Text.afterChar? '%' rest
  return (numeral, Text.skipSpaces rest)

/-- The end of a call: perhaps an alpha after a separator, then the closing parenthesis. -/
def alphaAndClose? (separator : Char) (cs : List Char) : Option (Option (List Char)) :=
  match Text.afterChar? separator cs with
  | some rest =>
    match spacedNumeral? rest with
    | some (alpha, [')']) => some (some alpha)
    | _ => none
  | none => if cs = [')'] then some none else none

/-- The rest after the name of a notation, perhaps with an `a`, and an opening parenthesis. -/
def afterName? (name : String) (cs : List Char) : Option (List Char) := do
  let rest ← Text.afterLetters? name.toList cs
  Text.afterChar? '(' ((Text.afterLetters? ['a'] rest).getD rest)

/-- Three, six or eight hexadecimal digits, perhaps after a number sign. -/
def hex? (cs : List Char) : Option ColorText := do
  let digits ← ((Text.afterChar? '#' cs).getD cs).mapM Text.hexValue?
  if digits.length = 3 then return .hex (digits.flatMap fun d => [d, d])
  else if digits.length = 6 ∨ digits.length = 8 then return .hex digits
  else none

/-- Three channels and perhaps an alpha, separated by commas. -/
def rgb? (cs : List Char) : Option ColorText := do
  let rest ← afterName? "rgb" cs
  let (r, rest) ← spacedNumeral? rest
  let (g, rest) ← spacedNumeral? (← Text.afterChar? ',' rest)
  let (b, rest) ← spacedNumeral? (← Text.afterChar? ',' rest)
  return .rgb r g b (← alphaAndClose? ',' rest)

/-- A hue, two percentages and perhaps an alpha, separated by commas. -/
def hsl? (cs : List Char) : Option ColorText := do
  let rest ← afterName? "hsl" cs
  let (hue, rest) ← spacedNumeral? rest
  let (saturation, rest) ← percentage? (← Text.afterChar? ',' rest)
  let (lightness, rest) ← percentage? (← Text.afterChar? ',' rest)
  return .hsl hue saturation lightness (← alphaAndClose? ',' rest)

/-- The rest after white space that has to be there. -/
def afterSpaces? (cs : List Char) : Option (List Char) :=
  (Text.run? Text.isSpace cs).map (·.2)

/-- A percentage and two numerals separated by white space, and perhaps an alpha after a slash. -/
def oklch? (cs : List Char) : Option ColorText := do
  let rest ← Text.afterLetters? "oklch".toList cs
  let rest ← Text.afterChar? '(' rest
  let (lightness, rest) ← Text.run? isNumeralChar (Text.skipSpaces rest)
  let rest ← afterSpaces? (← Text.afterChar? '%' rest)
  let (chroma, rest) ← Text.run? isNumeralChar rest
  let rest ← afterSpaces? rest
  let (hue, rest) ← spacedNumeral? rest
  return .oklch lightness chroma hue (← alphaAndClose? '/' rest)

/-- The form of a text without white space around it. -/
def ofChars? (cs : List Char) : Option ColorText :=
  hex? cs <|> rgb? cs <|> hsl? cs <|> oklch? cs

/-! ### The color of a form -/

/-- The number a numeral denotes. -/
def number (numeral : List Char) : Except Fault α :=
  match Decimal.Numeral.ofChars? numeral with
  | some n => .ok (ofDecimal n.digits n.power)
  | none => .error (.number .malformedNumeral)

/-- The alpha of a form; a missing one is 1. -/
def alphaValue : Option (List Char) → Except Fault α
  | some numeral => number numeral
  | none => .ok (ofNat 1)

/-- The channel that two hexadecimal digits spell. -/
def hexChannel (digits : List Nat) : α :=
  ofNat (digits.foldl (fun n d => 16 * n + d) 0) / ofNat 255

/-- The color of hexadecimal digits. -/
def ofHexDigits (digits : List Nat) : Rgba α :=
  { r := hexChannel (digits.take 2)
    g := hexChannel ((digits.drop 2).take 2)
    b := hexChannel ((digits.drop 4).take 2)
    a := if digits.length = 8 then hexChannel (digits.drop 6) else ofNat 1 }

/-- The color that a form denotes. -/
def toRgba [Polar α] : ColorText → Except Fault (Rgba α)
  | hex digits => .ok (ofHexDigits digits)
  | rgb r g b alpha => do
    let r ← number r
    let g ← number g
    let b ← number b
    let a ← alphaValue alpha
    let channel := fun (x : α) => clampUnit (x / ofNat 255)
    return ⟨channel r, channel g, channel b, a⟩
  | hsl hue saturation lightness alpha => do
    let hue ← number hue
    let saturation ← number saturation
    let lightness ← number lightness
    let a ← alphaValue alpha
    return Hsl.toRgba ⟨hue, saturation / ofNat 100, lightness / ofNat 100⟩ a
  | oklch lightness chroma hue alpha => do
    let a ← alphaValue alpha
    let lightness ← number lightness
    let chroma ← number chroma
    let hue ← number hue
    Polar.ofOklch ⟨lightness / ofNat 100, chroma, hue⟩ a

end ColorText

/-! ### Reading -/

/-- The color of a text in hexadecimal notation. -/
def Rgba.ofHex? (s : String) : Option (Rgba α) :=
  match ColorText.hex? (Text.trim s.toList) with
  | some (.hex digits) => some (ColorText.ofHexDigits digits)
  | _ => none

/-- The color of a text in any notation. -/
def Rgba.parse? [Polar α] (s : String) : Except Fault (Option (Rgba α)) :=
  match ColorText.ofChars? (Text.trim s.toList) with
  | some form => form.toRgba.map some
  | none => .ok none

/-- A color text in another notation. Hexadecimal text stays as it is for hexadecimal output, and so
does a text that is no color. -/
def recolor (format : ColorFormat) (s : String) : Except Fault String :=
  if format = .hex ∧ (Rgba.ofHex? s : Option Color).isSome then .ok s
  else do
    match ← (Rgba.parse? s : Except Fault (Option Color)) with
    | some color => color.render format
    | none => return s

end DesignTokens
