import DesignTokens.Decimal.Text
import DesignTokens.Fault

/-!
# Numbers that colors are computed with

The color formulas need the four operations, comparison, whole parts and decimal text. They are
stated once over a `Scalar` and used with floating-point numbers; over the rational numbers they are
the exact formulas.
-/

namespace DesignTokens

/-- Numbers that colors are computed with. -/
class Scalar (α : Type) extends Add α, Sub α, Mul α, Div α, LT α, LE α where
  /-- The number equal to a natural number. -/
  ofNat : Nat → α
  /-- The number nearest to `digits * 10 ^ power`. -/
  ofDecimal : (digits : Nat) → (power : Int) → α
  /-- The order is decidable. -/
  decLt : DecidableLT α
  /-- The order is decidable. -/
  decLe : DecidableLE α
  /-- Whether two numbers have the same value. -/
  same : α → α → Bool
  /-- The greatest whole number that is not above. -/
  floor : α → Except Fault Int
  /-- The remainder in `[0, n)` of division by a positive whole number. -/
  remainder : α → (n : Nat) → α
  /-- The text with a fixed number of decimal places. -/
  fixedText : (places : Nat) → α → String

namespace Scalar

instance [s : Scalar α] : DecidableLT α := s.decLt

instance [s : Scalar α] : DecidableLE α := s.decLe

variable {α : Type} [Scalar α]

/-- Division that refuses a zero divisor. -/
def divide (x y : α) : Except Fault α :=
  if same y (ofNat 0) then .error (.number .divisionByZero) else .ok (x / y)

/-- The greater of two numbers, the first one unless the second is strictly greater. -/
def larger (x y : α) : α := if x < y then y else x

/-- The lesser of two numbers, the first one unless the second is strictly less. -/
def smaller (x y : α) : α := if y < x then y else x

/-- The number `num / den`. -/
def ratio (num den : Nat) : α := ofNat num / ofNat den

/-- The nearest whole number, a half going up. -/
def round (x : α) : Except Fault Int := floor (x + ratio 1 2)

/-- A number brought into `[0, 1]`. -/
def clampUnit (x : α) : α := smaller (ofNat 1) (larger (ofNat 0) x)

end Scalar

/-- The greatest whole number that is not above a floating-point number. -/
def floorFloat (x : Float) : Except Fault Int :=
  match Exact.ofFloat x with
  | .nan => .error (.number .notANumber)
  | .infinite _ => .error (.number .infinite)
  | e => .ok (e.toRat?.elim 0 Rat.floor)

/-- The remainder of the magnitude `mantissa * 2 ^ exponent` by a positive whole number. A magnitude
below `n` is its own remainder; any other has few enough binary places for an exact quotient. -/
def magnitudeRemainder (x : Float) (n mantissa : Nat) (exponent : Int) : Float :=
  if x < Float.ofNat n then x
  else
    let den := Exact.denominator exponent
    Float.ofNat (Exact.numerator mantissa exponent % (n * den)) / Float.ofNat den

/-- The remainder of a floating-point number by a positive whole number, in `[0, n)` up to
rounding. -/
def floatRemainder (x : Float) (n : Nat) : Float :=
  match Exact.ofFloat x with
  | .finite negative mantissa exponent =>
    let r := magnitudeRemainder x.abs n mantissa exponent
    if r == 0.0 then 0.0
    else if negative then Float.ofNat n - r
    else r
  | _ => 0.0 / 0.0

instance : Scalar Float where
  ofNat := Float.ofNat
  ofDecimal := Decimal.toFloat
  decLt := inferInstance
  decLe := inferInstance
  same := fun x y => x == y
  floor := floorFloat
  remainder := floatRemainder
  fixedText := Decimal.fixedText

/-- The rational number `digits * 10 ^ power`. -/
def ratOfDecimal (digits : Nat) (power : Int) : Rat :=
  mkRat (digits * tenTo power.toNat) (tenTo (-power).toNat)

/-- A rational number with a fixed number of decimal places, an exact half going to the even
neighbour. -/
def ratFixedText (places : Nat) (x : Rat) : String :=
  String.ofList (Decimal.signed (x < 0) (Decimal.fixed places x.num.natAbs x.den))

instance : Scalar Rat where
  ofNat := fun n => (n : Rat)
  ofDecimal := ratOfDecimal
  decLt := inferInstance
  decLe := inferInstance
  same := fun x y => x == y
  floor := fun x => .ok x.floor
  remainder := fun x n => x - n * ((x / n).floor : Rat)
  fixedText := ratFixedText

end DesignTokens
