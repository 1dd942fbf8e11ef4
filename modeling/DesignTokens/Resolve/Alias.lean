import DesignTokens.Resolve.Scope

/-!
# Aliases

An alias stands for the value of another variable, which may be an alias again. The chain is followed
up to a bound; a chain that is longer, or that comes back to a variable, is circular, and a chain
that ends at an unknown variable or at a variable without a value is unresolved.
-/

namespace DesignTokens

/-- Why a chain of aliases leads to no value. -/
inductive AliasFailure where
  | unresolved
  | circular
deriving DecidableEq, Repr

/-- The comment written in place of a value that is not found. -/
def AliasFailure.sentinel : AliasFailure → String
  | unresolved => "/* unresolved alias */"
  | circular => "/* circular reference */"

/-- Where a chain of aliases leads. -/
inductive AliasEnd where
  /-- A value, held by the last variable of the chain. -/
  | value (holder : Variable) (value : VariableValue)
  /-- A variable without a value. -/
  | valueless (holder : Variable)
  /-- An unknown variable. -/
  | unknown
  /-- Back to a variable of the chain, or beyond the bound. -/
  | circular

/-- The first variable of a chain of aliases, if it is known, and where the chain leads. -/
structure AliasChain where
  target : Option Variable
  ending : AliasEnd

namespace AliasChain

/-- The variable that holds the value, or that lacks it. -/
def terminal? (c : AliasChain) : Option Variable :=
  match c.ending with
  | .value holder _ | .valueless holder => some holder
  | .unknown | .circular => none

/-- The value at the end of the chain. -/
def value? (c : AliasChain) : Option VariableValue :=
  match c.ending with
  | .value _ v => some v
  | _ => none

/-- Why there is no value at the end of the chain. -/
def failure? (c : AliasChain) : Option AliasFailure :=
  match c.ending with
  | .value _ _ => none
  | .valueless _ | .unknown => some .unresolved
  | .circular => some .circular

end AliasChain

namespace Library

/-- Where the chain leads that goes on with the variable of an id, when a number of links may still
be followed and some variables have been visited. -/
def chainEnd (l : Library) (modeId : String) : Nat → List String → String → AliasEnd
  | 0, _, _ => .circular
  | links + 1, visited, id =>
    if visited.contains id then .circular
    else match l.byId? id with
      | none => .unknown
      | some v => match l.valueInMode? v modeId with
        | none => .valueless v
        | some (.aliasOf next) => l.chainEnd modeId links (id :: visited) next
        | some value => .value v value

end Library

namespace Scope

/-- How many links of a chain are followed. -/
def linkBound (s : Scope) : Nat :=
  (s.maxDepth + 1).toNat

/-- The variables that a chain may not come back to from the start. -/
def startVisited (origin : Option String) : List String :=
  match origin with
  | some id => if id = "" then [] else [id]
  | none => []

/-- The chain of an alias of the variable with an id; the variable that has the alias may be given. -/
def follow (s : Scope) (modeId id : String) (origin : Option String) : AliasChain :=
  let ending := s.chainEnd modeId s.linkBound (startVisited origin) id
  let entered := 0 < s.linkBound && !(startVisited origin).contains id
  { target := if entered then s.byId? id else none, ending }

/-- The unit a variable's description asks for; pixels when it asks for none. -/
def unitOf (v : Variable) : Except Fault CssUnit := do
  return (← Directives.parse v.description).unit.getD .px

/-- A value when it is a finite number. -/
def finiteNumber? : VariableValue → Option Float
  | .number x => if isFiniteNumber x then some x else none
  | _ => none

/-- The finite number that a variable has in a mode, aliases being followed. -/
def numberInMode? (s : Scope) (v : Variable) (modeId : String) : Option Float :=
  match s.valueInMode? v modeId with
  | some (.aliasOf id) => ((s.follow modeId id (some v.id)).value?).bind finiteNumber?
  | some value => finiteNumber? value
  | none => none

/-- The finite number that a variable has in a mode, if any, with the unit of the variable. -/
def numberWithUnit (s : Scope) (v : Variable) (modeId : String) :
    Except Fault (Option Float × CssUnit) := do
  let unit ← unitOf v
  return (s.numberInMode? v modeId, unit)

/-- A variable whose description asks for a unit has a number with this unit, if any. -/
theorem numberWithUnit_of_unitOf {v : Variable} {unit : CssUnit} (h : unitOf v = .ok unit)
    (s : Scope) (modeId : String) :
    s.numberWithUnit v modeId = .ok (s.numberInMode? v modeId, unit) := by
  unfold numberWithUnit
  rw [h]
  rfl

/-- A number comes with the unit that the description asks for. -/
theorem numberWithUnit_eq_ok {s : Scope} {v : Variable} {modeId : String}
    {x : Option Float} {unit : CssUnit} (h : s.numberWithUnit v modeId = .ok (x, unit)) :
    unitOf v = .ok unit ∧ s.numberInMode? v modeId = x := by
  unfold numberWithUnit at h
  cases hunit : unitOf v with
  | error fault =>
    rw [hunit] at h
    cases h
  | ok found =>
    rw [hunit] at h
    cases h
    exact ⟨rfl, rfl⟩

end Scope

end DesignTokens
