import DesignTokens.Settings
import DesignTokens.Design.Variable

/-!
# Checking settings

Settings that can be read may still make no sense: a rename rule with a blank pattern, or the name of a
collection that does not exist. A check collects errors, with which nothing is exported, and warnings.
-/

namespace DesignTokens

/-- What a check of settings finds. -/
structure SettingsCheck where
  errors : List String := []
  warnings : List String := []

namespace SettingsCheck

/-- There are no errors. -/
def isValid (c : SettingsCheck) : Bool :=
  c.errors.isEmpty

/-- The findings of two checks, one after the other. -/
def append (a b : SettingsCheck) : SettingsCheck :=
  ⟨a.errors ++ b.errors, a.warnings ++ b.warnings⟩

/-- How many findings there are, in one line. -/
def summary (c : SettingsCheck) : String :=
  let errors := c.errors.length
  let warnings := c.warnings.length
  s!"SettingsValidationResult(errors={errors}, warnings={warnings})"

/-- An error when a condition holds. -/
def errorIf (condition : Bool) (message : String) : SettingsCheck :=
  if condition then { errors := [message] } else {}

/-- A warning when a condition holds. -/
def warningIf (condition : Bool) (message : String) : SettingsCheck :=
  if condition then { warnings := [message] } else {}

/-- The error of a precision below zero. -/
def ofPrecision (precision : Option Int) : SettingsCheck :=
  match precision with
  | some n => errorIf (n < 0) s!"number_precision must be >= 0, got {n}"
  | none => {}

/-- The findings on the rename rule at an index. -/
def ofRule (rule : RenameRule) (index : Nat) : SettingsCheck :=
  let place := s!"name_format_rules[{index}]"
  let problem := match Glob.compile rule.pattern with
    | .error fault => { errors := [place ++ ": " ++ fault.message] }
    | .ok _ => {}
  append problem (warningIf (Text.isBlank rule.replacement) (place ++ " has an empty replacement"))

/-- The warning about a selected collection that does not exist. -/
def ofSelected (collections : List Collection) (selected : String) : SettingsCheck :=
  warningIf (!collections.any fun c => c.id == selected || c.name == selected)
    s!"selected_collections: '{selected}' matches no collection"

/-- The error of a variable for the base of `rem` output that does not exist. -/
def ofRemBase (vars : List Variable) (id : String) : SettingsCheck :=
  errorIf (id != "" && !vars.any (·.id == id))
    s!"rem_base_variable_id '{id}' matches no variable"

/-- The findings on settings, for the variables and collections as far as they are known. -/
def ofSettings (s : Settings) (vars : Option (List Variable))
    (collections : Option (List Collection)) : SettingsCheck :=
  ([ofPrecision s.precision,
      warningIf (Text.isBlank s.selector) "selector is empty; ':root' will be used"] ++
    s.rules.zipIdx.map (fun (rule, index) => ofRule rule index) ++
    (collections.elim [] fun cs => s.selection.map (ofSelected cs)) ++
    (vars.elim [] fun vs => s.remBaseVariable.toList.map (ofRemBase vs))).foldl append {}

end SettingsCheck

end DesignTokens
