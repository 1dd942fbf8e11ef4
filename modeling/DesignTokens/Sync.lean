import DesignTokens.Resolve.Calculation

/-!
# Writing back

Results that go back into the records of a library: the values of calculations, and the names by
which code refers to variables. A report says what would change and what could not be computed;
applying it to variables leaves everything else as it is.
-/

namespace DesignTokens

/-! ### Calculations -/

/-- The values that calculations came to, by variable and mode, and what went wrong. -/
structure CalculationReport where
  synced : Nat := 0
  failed : Nat := 0
  warnings : List String := []
  updates : OrderedMap (OrderedMap Float) := []

namespace CalculationReport

/-- Records the value of a variable in a mode. -/
def withValue (r : CalculationReport) (id modeId : String) (x : Float) : CalculationReport :=
  let values := (OrderedMap.find? id r.updates).getD []
  { r with
    synced := r.synced + 1
    updates := OrderedMap.set id (OrderedMap.set modeId x values) r.updates }

/-- Records that a mode of a variable has no value, with the reasons. -/
def withFailure (r : CalculationReport) (name : String) (reasons : List String) :
    CalculationReport :=
  { r with
    failed := r.failed + 1
    warnings := r.warnings ++ reasons.map fun reason => s!"{name}: {reason}" }

/-- Evaluates the calculation of a variable in a mode. An ambiguous reference is a failure of the
mode only. -/
def addMode (s : Scope) (v : Variable) (f : Formatting) (r : CalculationReport) (mode : Mode) :
    Except Fault CalculationReport :=
  match s.calculate f mode.id with
  | .error (.ambiguousReference path collections) =>
    .ok (r.withFailure v.name [(Fault.ambiguousReference path collections).message])
  | .error fault => .error fault
  | .ok c => .ok <| match c.value, c.warnings with
    | some x, [] => r.withValue v.id mode.id x
    | _, warnings => r.withFailure v.name warnings

/-- Evaluates the calculation of a variable, if it has one, in all modes. -/
def addVariable (s : Scope) (modes : List Mode) (r : CalculationReport) (v : Variable) :
    Except Fault CalculationReport := do
  let f ← s.base.describedBy v.description
  if f.calculation?.isSome then modes.foldlM (addMode s v f) r else return r

/-- Evaluates the calculations of the variables of a collection. -/
def addCollection (s : Scope) (r : CalculationReport) (c : Collection) :
    Except Fault CalculationReport :=
  (s.vars.filter (·.collectionId == c.id)).foldlM (addVariable s c.modes) r

/-- Evaluates all calculations of a library. -/
def ofLibrary (library : Library) (settings : Settings) : Except Fault CalculationReport :=
  library.collections.foldlM (addCollection (Scope.ofSettings library settings)) {}

/-- A variable with its recorded values. -/
def applyTo (r : CalculationReport) (v : Variable) : Variable :=
  match OrderedMap.find? v.id r.updates with
  | some values =>
    { v with
      values := values.foldl (fun m (modeId, x) => OrderedMap.set modeId (.number x) m) v.values }
  | none => v

/-- Variables with their recorded values. -/
def apply (r : CalculationReport) (vars : List Variable) : List Variable :=
  vars.map r.applyTo

end CalculationReport

/-! ### Names in code -/

/-- The platform whose names are written back. -/
def webPlatform : String := "WEB"

/-- The names that variables get in web code; nothing clears a name. -/
structure CodeSyntaxReport where
  synced : Nat := 0
  skipped : Nat := 0
  codeSyntax : OrderedMap (Option String) := []

namespace CodeSyntaxReport

/-- Records the name of a variable. -/
def withName (r : CodeSyntaxReport) (id : String) (name : Option String) : CodeSyntaxReport :=
  { r with synced := r.synced + 1, codeSyntax := OrderedMap.set id name r.codeSyntax }

/-- Records that a variable keeps what it has. -/
def withSkipped (r : CodeSyntaxReport) : CodeSyntaxReport :=
  { r with skipped := r.skipped + 1 }

/-- Records the reference that rename rules give a variable if they describe it. The template of the
rule that decides has to be readable. -/
def addName (namePrefix : String) (rules : List RenameRule) (r : CodeSyntaxReport) (v : Variable) :
    Except Fault CodeSyntaxReport :=
  match RenameRule.first? rules v.name with
  | none => return r.withSkipped
  | some (rule, _) => do
    rule.checkTemplate
    return r.withName v.id (some (CssName.reference (CssName.format rules namePrefix v.name)))

/-- The references that rename rules give the variables they describe. -/
def ofRules (vars : List Variable) (namePrefix : String) (rules : List RenameRule) :
    Except Fault CodeSyntaxReport :=
  vars.foldlM (addName namePrefix rules) {}

/-- The clearing of all names in web code. -/
def clearing (vars : List Variable) : CodeSyntaxReport :=
  vars.foldl (fun r v =>
    if OrderedMap.has v.codeSyntax webPlatform then r.withName v.id none else r.withSkipped) {}

/-- A variable with its recorded name, after its names on other platforms. -/
def applyTo (r : CodeSyntaxReport) (v : Variable) : Variable :=
  match OrderedMap.find? v.id r.codeSyntax with
  | some name =>
    let others := v.codeSyntax.filter (·.1 != webPlatform)
    { v with codeSyntax := others ++ (name.map fun n => (webPlatform, n)).toList }
  | none => v

/-- Variables with their recorded names. -/
def apply (r : CodeSyntaxReport) (vars : List Variable) : List Variable :=
  vars.map r.applyTo

end CodeSyntaxReport

end DesignTokens
