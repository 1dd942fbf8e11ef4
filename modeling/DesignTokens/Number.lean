import DesignTokens.CssUnit
import DesignTokens.Decimal.Text
import DesignTokens.Fault

/-!
# Numbers in stylesheets

Numbers are kept in pixels. A whole number is written in full; any other number is rounded to a
number of decimal places and loses the zeros at its end. Output in `rem` divides by the base first.
-/

namespace DesignTokens.Number

/-- Decimal places when none are asked for. -/
def defaultPlaces : Nat := 4

/-- The largest number of decimal places that can be asked for, and of the digits that can be
counted. -/
def maxPlaces : Int := 2147483647

/-- A number in full: a whole number without a point, any other with the shortest digits that read
back. -/
def plain (x : Float) : String :=
  match (Exact.ofFloat x).toInt? with
  | some n => toString n
  | none => Decimal.text "NaN" "Infinity" x

/-- Digits with a point, without the zeros at the end and without a point that ends them. -/
def trimFraction (digits : List Char) : List Char :=
  let kept := digits.reverse.dropWhile (· == '0')
  (match kept with
    | '.' :: rest => rest
    | _ => kept).reverse

/-- A magnitude that is no whole number, rounded to decimal places and trimmed. Beyond its last
binary place a number has only zeros, so no more places than that are computed. -/
def roundedMagnitude (places mantissa : Nat) (exponent : Int) : List Char :=
  let places := min places (-exponent).toNat
  let text := Decimal.fixed places (Exact.numerator mantissa exponent) (Exact.denominator exponent)
  if places = 0 then text else trimFraction text

/-- How many digits an integer part has; a zero in front of the point does not count. -/
def integerDigits (n : Nat) : Nat :=
  if n = 0 then 0 else (Decimal.digitsOf n).length

/-- A magnitude that is no whole number with decimal places. When these and the digits in front of
the point are too many to be counted together, all of them are lost and a zero is left. -/
def countedMagnitude (places mantissa : Nat) (exponent : Int) : List Char :=
  let whole := Exact.numerator mantissa exponent / Exact.denominator exponent
  if maxPlaces < places + integerDigits whole then ['0']
  else roundedMagnitude places mantissa exponent

/-- A number with at most the given decimal places, `defaultPlaces` when none are given. -/
def rounded (places : Option Int) (x : Float) : Except Fault String :=
  match Exact.ofFloat x with
  | .finite negative mantissa exponent =>
    if (Exact.finite negative mantissa exponent).toInt?.isSome then .ok (plain x)
    else
      let wanted := places.getD defaultPlaces
      if wanted < 0 ∨ maxPlaces < wanted then .error (.number .placesOutOfRange)
      else .ok (String.ofList
        (Decimal.signed negative (countedMagnitude wanted.toNat mantissa exponent)))
  | _ => .ok (plain x)

/-- Division that refuses a zero divisor. -/
def divide (x y : Float) : Except Fault Float :=
  if y == 0.0 then .error (.number .divisionByZero) else .ok (x / y)

/-- A number of pixels in a unit. -/
def withUnit (unit : CssUnit) (remBase : Float) (places : Option Int) (x : Float) :
    Except Fault String := do
  let inUnit ← if unit = .rem then divide x remBase else pure x
  let text ← rounded places inUnit
  return text ++ unit.suffix

end DesignTokens.Number
