import DesignTokens.Resolve.Scope

/-!
# Calculations written out

A calculation may be written into the stylesheet instead of being evaluated. Quoted paths become
references to the variables they name, and the unit is applied by a conversion at the end. In CSS the
whole stands in `calc()` as soon as there is something to calculate.
-/

namespace DesignTokens

/-- A reference to the variable of a stylesheet name. -/
def CalcSyntax.reference : CalcSyntax → String → String
  | css, name => CssName.reference name
  | scss, name => "$" ++ name

/-- A calculation with the conversion to a unit. A base is the reference to the variable that holds
the base of `rem` output. -/
def convertTo (unit : CssUnit) (base : Option String) (text : String) : String :=
  match unit with
  | .rem | .em =>
    match base with
    | some reference => text ++ " / " ++ reference ++ " * 1" ++ unit.suffix
    | none => text ++ " * 1" ++ unit.suffix
  | .percent => text ++ " * 100%"
  | .ms | .s => text ++ unit.suffix
  | .none | .px => text

/-- What makes a text something to calculate: the operators, and references to custom
properties. -/
def calcMarks : List (List Char) := [['*'], ['/'], ['+'], ['-'], "var(".toList]

/-- Whether there is something to calculate in a text. -/
def hasCalculation (text : String) : Bool :=
  calcMarks.any fun mark => Text.occursIn mark text.toList

/-- A text in `calc()` when there is something to calculate in it. -/
def wrapCalc (text : String) : String :=
  if hasCalculation text then s!"calc({text})" else text

/-- The end of writing a calculation in a language. -/
def CalcSyntax.finish : CalcSyntax → String → String
  | css, text => wrapCalc text
  | scss, text => text

namespace Scope

/-- The reference that takes the place of a quoted path; a path that names no variable, or several,
stays as it is. -/
def passReference (s : Scope) (language : CalcSyntax) (r : Reference) : List Char :=
  match r with
  | .path raw => match s.byPath (Reference.pathText raw) with
    | .ok (some entry) => (language.reference (s.cssName entry.item)).toList
    | _ => r.chars
  | .property _ => r.chars

/-- A calculation with its quoted paths replaced. -/
def passReferences (s : Scope) (language : CalcSyntax) (text : String) : String :=
  replaceReferences Reference.path? (s.passReference language) text

/-- A calculation written out in a language, converted to a unit. -/
def passThrough (s : Scope) (language : CalcSyntax) (text : String)
    (remBaseVariable : Option String) (unit : CssUnit) : String :=
  let base := (remBaseVariable.filter (· ≠ "")).bind s.byId?
  language.finish <|
    convertTo unit (base.map fun v => language.reference (s.cssName v)) <|
      s.passReferences language text

end Scope

end DesignTokens
