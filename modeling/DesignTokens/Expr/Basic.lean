/-!
# Calculation trees

The tree of a `calc:` expression: numbers, names that stand in for references, signs, the four
operators and calls of named functions.
-/

namespace DesignTokens

/-- The four operators. -/
inductive BinaryOp where
  | add
  | sub
  | mul
  | div
deriving DecidableEq, Repr

/-- The two signs. -/
inductive UnaryOp where
  | neg
  | pos
deriving DecidableEq, Repr

/-- The character of an operator. -/
def BinaryOp.symbol : BinaryOp → String
  | add => "+"
  | sub => "-"
  | mul => "*"
  | div => "/"

/-- The character of a sign. -/
def UnaryOp.symbol : UnaryOp → String
  | neg => "-"
  | pos => "+"

/-- A calculation. -/
inductive Expr where
  | number (value : Float)
  | name (name : String)
  | unary (op : UnaryOp) (operand : Expr)
  | binary (op : BinaryOp) (left right : Expr)
  | call (function : String) (arguments : List Expr)

end DesignTokens
