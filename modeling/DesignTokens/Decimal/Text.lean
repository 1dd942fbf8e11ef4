import DesignTokens.Decimal.Exact
import DesignTokens.Decimal.Shortest
import DesignTokens.Text.Class

/-!
# Numbers as text

The written forms of a number: the shortest digits that read back, a fixed number of decimal places,
and the reading of a decimal numeral.
-/

namespace DesignTokens.Decimal

/-- A sign in front of the text of a negative number. -/
def signed (negative : Bool) (text : List Char) : List Char :=
  if negative then '-' :: text else text

/-- The magnitude of a finite number with the shortest digits that read back. -/
def magnitudeText (mantissa : Nat) (exponent : Int) : List Char :=
  Layout.standard.render (if mantissa = 0 then ⟨0, 0⟩ else shortest mantissa exponent)

/-- The shortest text that reads back as the number, with a decimal point or an exponent; the three
values that are no numbers have the given names. -/
def text (nan infinity : String) (x : Float) : String :=
  match Exact.ofFloat x with
  | .nan => nan
  | .infinite negative => String.ofList (signed negative infinity.toList)
  | .finite negative mantissa exponent =>
    String.ofList (signed negative (magnitudeText mantissa exponent))

/-- The shortest text that reads back, with lower-case names for NaN and infinity. -/
def shortText (x : Float) : String :=
  text "nan" "inf" x

/-- The number with exactly `places` decimal places. -/
def fixedText (places : Nat) (x : Float) : String :=
  match Exact.ofFloat x with
  | .nan => "nan"
  | .infinite negative => String.ofList (signed negative "inf".toList)
  | .finite negative mantissa exponent =>
    let num := Exact.numerator mantissa exponent
    String.ofList (signed negative (fixed places num (Exact.denominator exponent)))

/-! ### Reading -/

/-- The number that decimal digits of any script spell. -/
def natOfDigits (digits : List Char) : Nat :=
  digits.foldl (fun n c => 10 * n + Text.decimalValue c) 0

/-- The floating-point number nearest to `digits * 10 ^ power`. Beyond the range of the format no
power of ten is computed. -/
def toFloat (digits : Nat) (power : Int) : Float :=
  if digits = 0 then 0.0
  else
    let leading := (digitsOf digits).length + power
    if 310 < leading then 1.0 / 0.0
    else if leading < -330 then 0.0
    else Float.ofScientific digits (power < 0) power.natAbs

/-- An unsigned numeral: digits with at most one decimal point, then perhaps an exponent. -/
structure Numeral where
  whole : List Char
  fraction : List Char
  exponent : Int

/-- The exponent that a text spells: a mark `e`, perhaps a sign, and digits up to the end. -/
def exponent? : List Char → Option Int
  | [] => some 0
  | mark :: rest =>
    if mark == 'e' || mark == 'E' then
      let (negative, digits) := match rest with
        | '-' :: r => (true, r)
        | '+' :: r => (false, r)
        | r => (false, r)
      if digits.isEmpty || !digits.all Text.isDecimal then none
      else some (if negative then -(natOfDigits digits : Int) else natOfDigits digits)
    else none

/-- Reads an unsigned numeral that is the whole text; one of the two digit runs may be empty. -/
def Numeral.ofChars? (cs : List Char) : Option Numeral :=
  let whole := cs.takeWhile Text.isDecimal
  let (fraction, rest) := match cs.dropWhile Text.isDecimal with
    | '.' :: r => (r.takeWhile Text.isDecimal, r.dropWhile Text.isDecimal)
    | r => ([], r)
  if whole.isEmpty && fraction.isEmpty then none
  else (exponent? rest).map fun e => ⟨whole, fraction, e⟩

/-- The digits of a numeral as one whole number, to be scaled by its power of ten. -/
def Numeral.digits (n : Numeral) : Nat :=
  natOfDigits (n.whole ++ n.fraction)

/-- The power of ten that scales the digits of a numeral. -/
def Numeral.power (n : Numeral) : Int :=
  n.exponent - n.fraction.length

/-- The floating-point number nearest to a numeral. -/
def Numeral.toFloat (n : Numeral) : Float :=
  Decimal.toFloat n.digits n.power

end DesignTokens.Decimal
