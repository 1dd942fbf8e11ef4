import DesignTokens.Color.Basic
import DesignTokens.CssUnit
import DesignTokens.Decimal.Text
import DesignTokens.Text.Scan

/-!
# Directives in descriptions

The description of a variable or a style may hold formatting directives, a line or a part of a line
each:

    unit: rem(18); format: oklch
    calc: 'Spacing/base' * 2
    precision: 2

The keyword of a directive is looked for anywhere in the text, in either case; the first place where
a whole directive can be read counts. A unit that does not exist is passed over.
-/

namespace DesignTokens

/-- The directives found in a description. -/
structure Directives where
  unit : Option CssUnit := none
  /-- The base of `rem` output, in whole pixels. -/
  remBase : Option Nat := none
  /-- The path of the variable that holds the base of `rem` output. -/
  remBasePath : Option String := none
  colorFormat : Option ColorFormat := none
  /-- The calculation that gives the value. -/
  expression : Option String := none
  precision : Option Nat := none

namespace Directive

open Text

/-- The rest after a keyword and the white space that follows it. -/
def afterKeyword? (keyword : String) (cs : List Char) : Option (List Char) :=
  (afterLetters? keyword.toList cs).map skipSpaces

/-- The argument of a unit. -/
inductive UnitArgument where
  | number (numeral : List Char)
  | path (raw : List Char)

/-- Digits, perhaps with a point and more digits, and the rest. -/
def numeral? (cs : List Char) : Option (List Char × List Char) := do
  let (whole, rest) ← run? isDecimal cs
  match (afterChar? '.' rest).bind (run? isDecimal) with
  | some (fraction, rest) => return (whole ++ '.' :: fraction, rest)
  | none => return (whole, rest)

/-- A path between single quotes, and the rest. -/
def quotedPath? (cs : List Char) : Option (List Char × List Char) := do
  let (raw, rest) ← run? (· != '\'') (← afterChar? '\'' cs)
  return (raw, ← afterChar? '\'' rest)

/-- A number or a quoted path between parentheses. -/
def unitArgument? (cs : List Char) : Option UnitArgument := do
  let rest ← afterChar? '(' cs
  match numeral? rest with
  | some (numeral, rest) => (afterChar? ')' rest).map fun _ => .number numeral
  | none =>
    let (raw, rest) ← quotedPath? rest
    (afterChar? ')' rest).map fun _ => .path raw

/-- The name of a unit and its argument. -/
def unit? (cs : List Char) : Option (List Char × Option UnitArgument) := do
  let rest ← afterKeyword? "unit:" cs
  let (name, rest) ← match run? isWord rest with
    | some found => some found
    | none => (afterChar? '%' rest).map fun rest => (['%'], rest)
  return (name, unitArgument? rest)

/-- The names of color formats as they are tried, longer ones before their beginnings. -/
def formatNames : List String := ["rgba", "rgb", "hex", "hsl", "oklch"]

/-- The name of a color format, as written. -/
def format? (cs : List Char) : Option (List Char) := do
  let rest ← afterKeyword? "format:" cs
  formatNames.findSome? fun name =>
    (afterLetters? name.toList rest).map fun _ => rest.take name.length

/-- A calculation: up to a semicolon or the end of the line, but at least one character. When only
white space follows the keyword, the calculation is empty if any of it is not a line break. -/
def calculation? (cs : List Char) : Option (List Char) := do
  let rest ← afterLetters? "calc:".toList cs
  match skipSpaces rest with
  | c :: more => return trim (c :: more.takeWhile fun d => d != ';' && d != '\n')
  | [] => if rest.all (· == '\n') then none else return []

/-- The digits of a precision. -/
def precision? (cs : List Char) : Option (List Char) := do
  let rest ← afterKeyword? "precision:" cs
  (run? isDecimal rest).map (·.1)

/-- The whole number that digits spell. -/
def wholeNumber (digits : List Char) : Except Fault Nat :=
  if Decimal.maxDigits < digits.length then .error (.number .malformedNumeral)
  else .ok (Decimal.natOfDigits digits)

/-- The directives of a unit that exists. A base is rounded down; zero is passed over. -/
def ofUnit (unit : CssUnit) (argument : Option UnitArgument) (d : Directives) :
    Except Fault Directives :=
  let d := { d with unit := some unit }
  match argument with
  | some (.number numeral) => do
    let x := ((Decimal.Numeral.ofChars? numeral).map Decimal.Numeral.toFloat).getD 0.0
    let base ← floorFloat x
    return if 0 < base then { d with remBase := some base.toNat } else d
  | some (.path raw) => .ok { d with remBasePath := some (String.ofList raw) }
  | none => .ok d

/-- Adds the unit directive of a text. -/
def withUnit (cs : List Char) (d : Directives) : Except Fault Directives :=
  match firstMatch? unit? cs with
  | some (name, argument) =>
    match CssUnit.ofName? (lower (String.ofList name)) with
    | some unit => ofUnit unit argument d
    | none => .ok d
  | none => .ok d

/-- Adds the color format directive of a text. -/
def withFormat (cs : List Char) (d : Directives) : Except Fault Directives :=
  match firstMatch? format? cs with
  | some name =>
    match ColorFormat.ofName? (lower (String.ofList name)) with
    | some format => .ok { d with colorFormat := some format }
    | none => .error .unknownName
  | none => .ok d

/-- Adds the calculation of a text. -/
def withCalculation (cs : List Char) (d : Directives) : Directives :=
  match firstMatch? calculation? cs with
  | some e => { d with expression := some (String.ofList e) }
  | none => d

/-- Adds the precision of a text. -/
def withPrecision (cs : List Char) (d : Directives) : Except Fault Directives :=
  match firstMatch? precision? cs with
  | some digits => do return { d with precision := some (← wholeNumber digits) }
  | none => .ok d

end Directive

/-- The directives of a description. -/
def Directives.parse (description : String) : Except Fault Directives := do
  let cs := description.toList
  let d ← Directive.withUnit cs {}
  let d ← Directive.withFormat cs d
  Directive.withPrecision cs (Directive.withCalculation cs d)

end DesignTokens
