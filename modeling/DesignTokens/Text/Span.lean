/-!
# Spans of code points

Character classes and case mappings are given by short tables over spans of code points. Here are
the two kinds of table rows and what a table of them says about one code point.
-/

namespace DesignTokens.Text

/-- The code points from `first` to `last`, both included. -/
structure Span where
  first : Nat
  last : Nat
deriving Repr, DecidableEq

/-- Whether the span holds the code point. -/
def Span.holds (s : Span) (n : Nat) : Bool :=
  s.first ≤ n && n ≤ s.last

/-- Whether one of the spans holds the code point. -/
def inSpans (spans : List Span) (n : Nat) : Bool :=
  spans.any (·.holds n)

/-- Every `step`-th code point from `first` to `last` moves by `offset`. -/
structure Shift where
  first : Nat
  last : Nat
  step : Nat
  offset : Int
deriving Repr, DecidableEq

/-- Whether the shift moves the code point. -/
def Shift.moves (s : Shift) (n : Nat) : Bool :=
  s.first ≤ n && n ≤ s.last && (n - s.first) % s.step == 0

/-- Where the first shift that moves the code point takes it. -/
def shifted? (shifts : List Shift) (n : Nat) : Option Nat :=
  (shifts.find? (·.moves n)).map fun s => ((n : Int) + s.offset).toNat

end DesignTokens.Text
