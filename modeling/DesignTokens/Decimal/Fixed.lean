import DesignTokens.Decimal.Exact

/-!
# Fixed decimal places

A non-negative rational is rounded to a number of decimal places, an exact half to the even
neighbour, and written with all these places.
-/

namespace DesignTokens.Decimal

/-- `num / den` rounded to the nearest whole number, an exact half to the even neighbour. -/
def roundDiv (num den : Nat) : Nat :=
  let quotient := num / den
  let twice := 2 * (num % den)
  if twice < den then quotient
  else if den < twice then quotient + 1
  else quotient + quotient % 2

/-- The decimal digits of a number. -/
def digitsOf (n : Nat) : List Char :=
  Nat.toDigits 10 n

/-- The most digits a whole number may be read from or written with. -/
def maxDigits : Nat := 4300

/-- Digits with a decimal point before the last `places` of them, zeros added in front as needed. -/
def placePoint (places : Nat) (digits : List Char) : List Char :=
  let padded := List.replicate (places + 1 - digits.length) '0' ++ digits
  let whole := padded.length - places
  if places = 0 then padded else padded.take whole ++ '.' :: padded.drop whole

/-- `num / den` with exactly `places` decimal places. -/
def fixed (places num den : Nat) : List Char :=
  placePoint places (digitsOf (roundDiv (num * tenTo places) den))

end DesignTokens.Decimal
