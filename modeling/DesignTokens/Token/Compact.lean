import DesignTokens.Json.Basic

/-!
# Compact documents

A compact document has no descriptions and no empty extensions. Values are kept as they are.
-/

namespace DesignTokens.Json

/-- The extensions that are not empty. -/
def fullExtensions (extensions : List (String × Json)) : List (String × Json) :=
  extensions.filter (·.2.isTruthy)

mutual

/-- A value without descriptions and empty extensions. -/
def compact : Json → Json
  | object fields => object (compactFields fields)
  | value => value

/-- Fields without descriptions and empty extensions. -/
def compactFields : List (String × Json) → List (String × Json)
  | [] => []
  | (key, value) :: rest =>
    if key = "$description" then compactFields rest
    else if key = "$value" then (key, value) :: compactFields rest
    else match key, value with
      | "$extensions", object extensions =>
        match fullExtensions extensions with
        | [] => compactFields rest
        | full => (key, object full) :: compactFields rest
      | _, _ => (key, compact value) :: compactFields rest

end

end DesignTokens.Json
