import DesignTokens.Expr.Calculation
import DesignTokens.Resolve.Alias

/-!
# Calculations over a library

The value of a calculation in a mode: its references are looked up among the variables, and each
that names a numeric variable brings its number and its unit. References that bring no number give
warnings, before those of the calculation itself.
-/

namespace DesignTokens

namespace Scope

/-- The numbers found for references, by the text of the reference, and the warnings so far. -/
structure Found where
  quantities : List (String × Quantity) := []
  warnings : List String := []

/-- Adds what the variable behind a reference brings: its number, or a warning. -/
def addEntry (s : Scope) (modeId : String) (found : Found) (r : Reference) (entry : LibraryEntry) :
    Except Fault Found := do
  let shown := Reference.display r.text
  let type := entry.item.type.name
  if entry.item.type ≠ .number then
    return { found with
      warnings := found.warnings ++ [s!"Variable '{shown}' is not numeric (type: {type})"] }
  match ← s.numberWithUnit entry.item modeId with
  | (some value, unit) =>
    return { found with quantities := found.quantities ++ [(r.text, { value, unit })] }
  | (none, _) =>
    return { found with
      warnings := found.warnings ++ [s!"Could not resolve value for '{shown}'"] }

/-- Looks up one reference. -/
def lookUp (s : Scope) (modeId : String) (found : Found) (r : Reference) :
    Except Fault Found := do
  if (found.quantities.lookup r.text).isSome then return found
  match ← s.byReference r with
  | none => return found
  | some entry => s.addEntry modeId found r entry

/-- The outcome of the calculation of a formatting in a mode. A unit of the formatting other than
pixels takes the place of the units of the references. -/
def calculate (s : Scope) (f : Formatting) (modeId : String) : Except Fault Calculation := do
  match f.calculation? with
  | none => return { value := none, unit := f.unit, warnings := ["No expression provided"] }
  | some text =>
    let found ← (referencesOf Reference.any? text).foldlM (s.lookUp modeId) {}
    let c := Calculation.ofText text fun reference => found.quantities.lookup reference
    return { c with
      unit := if f.unit = .px then c.unit else f.unit
      warnings := found.warnings ++ c.warnings }

/-- The number a calculation comes to, when there is nothing to warn about. -/
def calculated? (s : Scope) (f : Formatting) (modeId : String) :
    Except Fault (Option Quantity) := do
  let c ← s.calculate f modeId
  return if c.warnings.isEmpty then c.value.map fun value => { value, unit := c.unit } else none

end Scope

end DesignTokens
