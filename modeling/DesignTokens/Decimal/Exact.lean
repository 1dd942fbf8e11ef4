/-!
# Exact values of floating-point numbers

A finite floating-point number is a sign and a magnitude `mantissa * 2 ^ exponent`. All printing and
all passages to whole numbers go through this reading, in exact integer arithmetic.
-/

namespace DesignTokens

/-- A power of two. -/
def twoTo (n : Nat) : Nat := Nat.pow 2 n

/-- A power of ten. -/
def tenTo (n : Nat) : Nat := Nat.pow 10 n

/-- What a floating-point number denotes. -/
inductive Exact where
  | nan
  | infinite (negative : Bool)
  | finite (negative : Bool) (mantissa : Nat) (exponent : Int)
deriving Repr, DecidableEq

namespace Exact

/-- Reads the sign, the eleven exponent bits and the fifty-two fraction bits. -/
def ofFloat (x : Float) : Exact :=
  let bits := x.toBits.toNat
  let negative := twoTo 63 ≤ bits
  let field : Nat := bits / twoTo 52 % twoTo 11
  let fraction := bits % twoTo 52
  if field = 2047 then
    if fraction = 0 then .infinite negative else .nan
  else if field = 0 then .finite negative fraction (-1074)
  else .finite negative (fraction + twoTo 52) ((field : Int) - 1075)

/-- The numerator of the magnitude `mantissa * 2 ^ exponent`. -/
def numerator (mantissa : Nat) (exponent : Int) : Nat :=
  mantissa * twoTo exponent.toNat

/-- The denominator of the magnitude `mantissa * 2 ^ exponent`, a power of two. -/
def denominator (exponent : Int) : Nat :=
  twoTo (-exponent).toNat

/-- The value as a rational number; there is none for NaN and the infinities. -/
def toRat? : Exact → Option Rat
  | finite negative mantissa exponent =>
    let n : Int := numerator mantissa exponent
    some (mkRat (if negative then -n else n) (denominator exponent))
  | _ => none

/-- The value when it is a whole number. -/
def toInt? (e : Exact) : Option Int :=
  match e.toRat? with
  | some r => if r.den = 1 then some r.num else none
  | none => none

/-- The value is negative or a negative zero. -/
def isNegative : Exact → Bool
  | nan => false
  | infinite negative => negative
  | finite negative _ _ => negative

end Exact

/-- The number is neither NaN nor infinite. -/
def isFiniteNumber (x : Float) : Bool :=
  (Exact.ofFloat x).toRat?.isSome

end DesignTokens
