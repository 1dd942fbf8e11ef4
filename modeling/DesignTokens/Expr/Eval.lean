import DesignTokens.Expr.Basic
import DesignTokens.Decimal.Exact

/-!
# Evaluating calculations

The value of a calculation over the values of its names. A division by zero has the value that
floating-point division gives it and is remembered beside the result.
-/

namespace DesignTokens

/-- Why a calculation has no value. -/
inductive EvalFault where
  | undefined (name : String)
  | unknownFunction (name : String)
  | wrongCount (function : String) (expected found : Nat)
deriving DecidableEq, Repr

/-- The wording of an evaluation fault. -/
def EvalFault.message : EvalFault → String
  | undefined name => s!"Undefined identifier: {name}"
  | unknownFunction name => s!"Unknown function: {name}()"
  | wrongCount function expected found =>
    s!"{function}() takes {expected} argument(s), got {found}"

/-- The functions a calculation may call. -/
inductive CalcFunction where
  | round
  | floor
  | ceil
  | abs
  | min
  | max
deriving DecidableEq, Repr

namespace CalcFunction

/-- All functions. -/
def all : List CalcFunction := [round, floor, ceil, abs, min, max]

/-- The name of a function. -/
def name : CalcFunction → String
  | round => "round"
  | floor => "floor"
  | ceil => "ceil"
  | abs => "abs"
  | min => "min"
  | max => "max"

/-- The function with a name. -/
def ofName? (text : String) : Option CalcFunction :=
  all.find? (·.name == text)

/-- How many arguments a function takes; the least and the greatest take any number. -/
def arity : CalcFunction → Option Nat
  | round | floor | ceil | abs => some 1
  | min | max => none

/-- A whole number taken from the exact value of a finite number; other values are kept. -/
def whole (toInt : Rat → Int) (x : Float) : Float :=
  match (Exact.ofFloat x).toRat? with
  | some r => Float.ofInt (toInt r)
  | none => x

/-- The least of the numbers, infinity when there are none. -/
def least : List Float → Float
  | [] => 1.0 / 0.0
  | x :: rest => rest.foldl (fun a b => if b < a then b else a) x

/-- The greatest of the numbers, minus infinity when there are none. -/
def greatest : List Float → Float
  | [] => -(1.0 / 0.0)
  | x :: rest => rest.foldl (fun a b => if a < b then b else a) x

/-- The value of a function; rounding takes a half upwards. -/
def apply (f : CalcFunction) (arguments : List Float) : Float :=
  let x := arguments.headD 0.0
  match f with
  | round => if isFiniteNumber x then whole Rat.floor (x + 0.5) else x
  | floor => whole Rat.floor x
  | ceil => whole Rat.ceil x
  | abs => x.abs
  | min => least arguments
  | max => greatest arguments

/-- The function of a call, when it exists and takes that many arguments. -/
def forCall (name : String) (count : Nat) : Except EvalFault CalcFunction :=
  match ofName? name with
  | none => .error (.unknownFunction name)
  | some f => match f.arity with
    | some expected =>
      if expected = count then .ok f else .error (.wrongCount name expected count)
    | none => .ok f

end CalcFunction

namespace Expr

/-- A value, and whether some division on the way to it had a zero divisor. -/
structure Outcome where
  value : Float
  dividedByZero : Bool := false

/-- The value of an operator. -/
def applyBinary (op : BinaryOp) (x y : Float) : Float :=
  match op with
  | .add => x + y
  | .sub => x - y
  | .mul => x * y
  | .div => x / y

/-- The value of a sign. -/
def applyUnary (op : UnaryOp) (x : Float) : Float :=
  match op with
  | .neg => -x
  | .pos => x

mutual

/-- The outcome of a calculation, operands from left to right. -/
def eval (values : String → Option Float) : Expr → Except EvalFault Outcome
  | number value => .ok ⟨value, false⟩
  | name n => match values n with
    | some value => .ok ⟨value, false⟩
    | none => .error (.undefined n)
  | unary op operand => match eval values operand with
    | .ok x => .ok ⟨applyUnary op x.value, x.dividedByZero⟩
    | .error fault => .error fault
  | binary op left right => match eval values left with
    | .error fault => .error fault
    | .ok x => match eval values right with
      | .error fault => .error fault
      | .ok y =>
        let zero := op = .div && y.value == 0.0
        .ok ⟨applyBinary op x.value y.value, x.dividedByZero || y.dividedByZero || zero⟩
  | call function arguments => match CalcFunction.forCall function arguments.length with
    | .error fault => .error fault
    | .ok f => match evalAll values arguments with
      | .error fault => .error fault
      | .ok outcomes =>
        .ok ⟨f.apply (outcomes.map (·.value)), outcomes.any (·.dividedByZero)⟩

/-- The outcomes of several calculations, from left to right. -/
def evalAll (values : String → Option Float) : List Expr → Except EvalFault (List Outcome)
  | [] => .ok []
  | e :: rest => match eval values e with
    | .error fault => .error fault
    | .ok x => match evalAll values rest with
      | .error fault => .error fault
      | .ok xs => .ok (x :: xs)

end

end Expr

end DesignTokens
