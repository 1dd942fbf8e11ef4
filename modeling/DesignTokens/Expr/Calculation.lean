import DesignTokens.CssUnit
import DesignTokens.Expr.Eval
import DesignTokens.Expr.Parser
import DesignTokens.Expr.Reference

/-!
# Calculations over references

The outcome of the text of a calculation, given the values of its references. Every reference is
replaced by an identifier, one per distinct reference, before the text is parsed. A reference
without a value, a text that does not parse and a tree that does not evaluate leave the calculation
without a value; each of these, and a division by zero, gives a warning.
-/

namespace DesignTokens

/-- A number of a reference and its unit. -/
structure Quantity where
  value : Float
  unit : CssUnit := .px

/-- What a calculation comes to. -/
structure Calculation where
  value : Option Float
  unit : CssUnit := .px
  warnings : List String := []

namespace Calculation

/-- There is a value, and nothing to warn about. -/
def isOk (c : Calculation) : Bool :=
  c.value.isSome && c.warnings.isEmpty

/-- The distinct references of a text in the order of their first occurrence. -/
def distinctReferences (text : String) : List Reference :=
  (referencesOf Reference.any? text).eraseDups

/-- The identifier that stands for the reference with an index. -/
def standIn (index : Nat) : String :=
  s!"__ref{index}"

/-- The text with a spaced identifier in place of every reference. -/
def substituted (text : String) : String :=
  let references := distinctReferences text
  replaceReferences Reference.any?
    (fun r => ' ' :: (standIn (references.idxOf r)).toList ++ [' ']) text

/-- The values of the identifiers that stand for references. -/
def standInValues (references : List Reference) (context : String → Option Quantity)
    (name : String) : Option Float :=
  match references.zipIdx.find? fun (_, index) => standIn index == name with
  | some (r, _) => (context r.text).map (·.value)
  | none => none

/-- The first unit among the references that is not pixels. -/
def commonUnit (quantities : List Quantity) : CssUnit :=
  ((quantities.find? (·.unit ≠ .px)).map (·.unit)).getD .px

/-- The warning about a reference without a value. -/
def notFound (r : Reference) : String :=
  let shown := Reference.display r.text
  s!"Variable '{shown}' not found"

/-- The warning about a text that has no value. -/
def syntaxWarning (message : String) : String :=
  s!"Expression syntax error: {message}"

/-- The value of a text whose references all have values, or the reason why there is none. -/
def compute (text : String) (values : String → Option Float) : Except String Expr.Outcome :=
  match Expr.parse text with
  | .error fault => .error fault.message
  | .ok tree => match tree.eval values with
    | .error fault => .error fault.message
    | .ok outcome => .ok outcome

/-- The outcome of a calculation; the context gives the values of references by their text. -/
def ofText (text : String) (context : String → Option Quantity) : Calculation :=
  let references := distinctReferences text
  let missing := references.filter fun r => (context r.text).isNone
  let unit := commonUnit (references.filterMap fun r => context r.text)
  if !missing.isEmpty then { value := none, unit, warnings := missing.map notFound }
  else match compute (substituted text) (standInValues references context) with
    | .error message => { value := none, unit, warnings := [syntaxWarning message] }
    | .ok outcome =>
      { value := some outcome.value, unit
        warnings := if outcome.dividedByZero then ["Division by zero"] else [] }

end Calculation

end DesignTokens
