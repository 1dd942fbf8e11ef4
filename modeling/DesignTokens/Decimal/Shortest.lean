import DesignTokens.Decimal.Fixed

/-!
# Shortest decimal digits

The shortest decimal that reads back as a given floating-point number. The reals that round to
`mantissa * 2 ^ exponent` form an interval; of the decimals with one digit, two digits and so on the
first that lies in the interval is taken, of two the nearer one.
-/

namespace DesignTokens.Decimal

/-- A decimal `digits * 10 ^ power`. -/
structure Scientific where
  digits : Nat
  power : Int
deriving Repr, DecidableEq

/-- The reals that round to one number, all bounds over the denominator `den`. The bounds belong to
the interval when it is closed. -/
structure Interval where
  low : Nat
  value : Nat
  high : Nat
  den : Nat
  closed : Bool

/-- The interval of `mantissa * 2 ^ exponent`: half a unit to each side, and a quarter unit below a
power of two, where the numbers underneath are twice as dense. -/
def Interval.around (mantissa : Nat) (exponent : Int) : Interval :=
  let scale := twoTo (exponent - 2).toNat
  let below := if mantissa = twoTo 52 ∧ -1074 < exponent then 1 else 2
  { low := (4 * mantissa - below) * scale
    value := 4 * mantissa * scale
    high := (4 * mantissa + 2) * scale
    den := twoTo (2 - exponent).toNat
    closed := mantissa % 2 = 0 }

namespace Interval

/-- The decimal `n * 10 ^ power` lies in the interval. -/
def holds (i : Interval) (n : Nat) (power : Int) : Bool :=
  let point := n * tenTo power.toNat * i.den
  let grid := tenTo (-power).toNat
  if i.closed then i.low * grid ≤ point && point ≤ i.high * grid
  else i.low * grid < point && point < i.high * grid

/-- The power of ten of the leading digit of the value. -/
def leading (i : Interval) : Int :=
  if i.den ≤ i.value then ((digitsOf (i.value / i.den)).length : Int) - 1
  else
    let shift := (digitsOf i.den).length - (digitsOf i.value).length
    if i.den ≤ i.value * tenTo shift then -(shift : Int) else -(shift : Int) - 1

/-- The decimal with `count` digits that lies in the interval, the nearer one to the value if there
are two. -/
def nearest? (i : Interval) (count : Nat) : Option Scientific :=
  let power := i.leading - count + 1
  let num := i.value * tenTo (-power).toNat
  let unit := tenTo power.toNat * i.den
  let floor := num / unit
  let rounded := roundDiv num unit
  if i.holds rounded power then some ⟨rounded, power⟩
  else if i.holds floor power then some ⟨floor, power⟩
  else if i.holds (floor + 1) power then some ⟨floor + 1, power⟩
  else none

/-- The first count of digits for which there is a decimal in the interval; seventeen digits always
suffice. -/
def shortest (i : Interval) : Scientific :=
  ((List.range 17).findSome? fun k => i.nearest? (k + 1)).getD ⟨0, 0⟩

end Interval

/-- The shortest digits of a positive floating-point number `mantissa * 2 ^ exponent`. -/
def shortest (mantissa : Nat) (exponent : Int) : Scientific :=
  (Interval.around mantissa exponent).shortest

/-! ### Layout -/

/-- How a decimal is laid out in a text format. -/
structure Layout where
  /-- The least power of ten of a leading digit that is written positionally. -/
  positionalFrom : Int
  /-- From this power of ten of the leading digit on an exponent is written. -/
  exponentFrom : Int
  /-- The least number of digits of an exponent. -/
  exponentWidth : Nat

/-- Positional notation from `0.0001` to below `10 ^ 16`, exponents with two digits or more. -/
def Layout.standard : Layout := ⟨-4, 16, 2⟩

/-- Digits without the zeros at their end. -/
def dropTrailingZeros (digits : List Char) : List Char :=
  (digits.reverse.dropWhile (· == '0')).reverse

/-- A whole number with its sign and at least `width` digits. -/
def exponentText (width : Nat) (n : Int) : List Char :=
  let digits := digitsOf n.natAbs
  (if n < 0 then '-' else '+') :: List.replicate (width - digits.length) '0' ++ digits

/-- Writes a decimal; a positional text always shows a decimal point and a digit after it. -/
def Layout.render (l : Layout) (s : Scientific) : List Char :=
  let all := digitsOf s.digits
  let digits := if s.digits = 0 then ['0'] else dropTrailingZeros all
  let leading := if s.digits = 0 then 0 else s.power + all.length - 1
  if l.positionalFrom ≤ leading ∧ leading < l.exponentFrom then
    if leading < 0 then '0' :: '.' :: List.replicate (-leading - 1).toNat '0' ++ digits
    else
      let whole := leading.toNat + 1
      let fraction := digits.drop whole
      digits.take whole ++ List.replicate (whole - digits.length) '0' ++ '.' ::
        (if fraction.isEmpty then ['0'] else fraction)
  else
    digits.take 1 ++ (if digits.length = 1 then [] else '.' :: digits.drop 1) ++
      'e' :: exponentText l.exponentWidth leading

end DesignTokens.Decimal
