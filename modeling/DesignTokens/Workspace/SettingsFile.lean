import DesignTokens.Json.Reader
import DesignTokens.Json.Writer
import DesignTokens.Settings
import DesignTokens.Text.Case
import DesignTokens.Timestamp
import DesignTokens.Toml.Reader
import DesignTokens.Workspace.Basic
import DesignTokens.Yaml.Reader
import DesignTokens.Yaml.Writer

/-!
# Settings files

The settings of a project stand in a YAML file of its directory, or in a table of its TOML file when
there is no YAML file. A portable JSON file moves settings from one project to another; its keys are
in camel case.
-/

namespace DesignTokens.SettingsFile

/-- The fault of a settings file. -/
def fault {α : Type} (file : String) (problem : SettingsProblem) : Except Fault α :=
  .error (.malformedSettings file problem)

/-- The settings of plain data that stand in a file. -/
def readData (file : String) (data : Json) : Except Fault Settings :=
  match Settings.read data with
  | .ok s => .ok s
  | .error _ => fault file .invalidSchema

/-! ### Settings of a project -/

/-- The name of the YAML file. -/
def yamlName : String := "tokenvex.yaml"

/-- The name of the TOML file, which holds settings of other programs too. -/
def tomlName : String := "pyproject.toml"

/-- The table of all programs in the TOML file. -/
def tomlSection : String := "tool"

/-- The table of settings in the table of all programs. -/
def tomlTable : String := "tokenvex"

/-- Whether a directory has a YAML file. -/
def isPresent (w : Workspace) (directory : String) : Bool :=
  w.has (PathText.join directory yamlName)

/-- The settings of the data of a YAML file. Data that count as absent stand for the default settings,
where these may be used. -/
def ofYamlData (file : String) (useDefaults : Bool) (data : Json) : Except Fault Settings :=
  if !data.isTruthy then if useDefaults then .ok {} else fault file .empty
  else match data with
    | .object _ => readData file data
    | _ => fault file .notMapping

/-- The table of settings in the data of a TOML file. -/
def tableOf? (data : Json) : Except Fault (Option Json) :=
  match data.field? tomlSection with
  | none => .ok none
  | some (.object fields) => .ok <| match OrderedMap.find? tomlTable fields with
    | some (.object entries) => some (.object entries)
    | _ => none
  | some _ => .error .notAnObject

/-- The table of settings in the TOML file of a directory. -/
def tomlTable? (w : Workspace) (directory shown : String) : Except Fault (Option Json) :=
  match w.stored? (PathText.join directory tomlName) with
  | none => .ok none
  | some text => match Toml.read? text with
    | none => fault (PathText.join shown tomlName) .invalidToml
    | some data => do
      data.checkDigits
      tableOf? data

/-- The settings of the project in a directory, which messages call `shown`. -/
def load (w : Workspace) (directory shown : String) (useDefaults : Bool) : Except Fault Settings :=
  let file := PathText.join shown yamlName
  if isPresent w directory then do
    let text ← w.read (PathText.join directory yamlName)
    match Yaml.read? text with
    | none => fault file .invalidYaml
    | some data => do
      data.checkDigits
      ofYamlData file useDefaults data
  else do
    match ← tomlTable? w directory shown with
    | some table => readData (PathText.join shown tomlName) table
    | none => if useDefaults then return {} else fault file .notFound

/-- Saves the settings of the project in a directory, without those that have their default values. -/
def save (w : Workspace) (directory : String) (s : Settings) : Except Fault Workspace := do
  s.changesToJson.checkDigits
  w.write (PathText.join directory yamlName) (Yaml.render s.changesToJson)

/-! ### Portable files -/

/-- The version of portable files. -/
def version : Int := 1

/-- Characters in camel case: an underscore is left out and the letter after it capitalized. -/
def camelChars : List Char → List Char
  | '_' :: c :: rest => c.toUpper :: camelChars rest
  | c :: rest => c :: camelChars rest
  | [] => []

/-- A key in camel case. -/
def camelKey (key : String) : String :=
  String.ofList (camelChars key.toList)

/-- A new word begins with the second of three characters: at a capital or a digit after a small
letter, at a capital after a digit, and at a capital between a capital and a small letter. -/
def beginsWord (before c : Char) (after : Option Char) : Bool :=
  (before.isLower && (c.isUpper || c.isDigit)) || (before.isDigit && c.isUpper) ||
    (before.isUpper && c.isUpper && after.any Char.isLower)

/-- Characters with an underscore before each new word. -/
def splitWords : List Char → List Char
  | c :: d :: rest =>
    c :: (if beginsWord c d rest.head? then ['_'] else []) ++ splitWords (d :: rest)
  | cs => cs

/-- A key in small letters with underscores between its words. -/
def snakeKey (key : String) : String :=
  Text.lower (String.ofList ((splitWords key.toList).map fun c => if c = '-' then '_' else c))

/-- The fields of an object under other keys; of fields with one key the last one counts. -/
def withKeys (rename : String → String) : Json → Json
  | .object fields => .object (OrderedMap.ofList (fields.map fun (key, value) => (rename key, value)))
  | value => value

/-- Settings as the data of a portable file. -/
def portableData (s : Settings) (exportedAt : String) : Json :=
  .object [("version", .int version), ("exportedAt", .text (timestamp exportedAt)),
    ("settings", withKeys camelKey s.toJson)]

/-- Settings as the text of a portable file. -/
def portableText (s : Settings) (exportedAt : String) : String :=
  (portableData s exportedAt).render .indented ++ "\n"

/-- Writes settings to a portable file. -/
def exportTo (w : Workspace) (path : String) (s : Settings) (exportedAt : String := "") :
    Except Fault Workspace := do
  (portableData s exportedAt).checkDigits
  w.write path (portableText s exportedAt)

/-- A value equals the number of the version; true counts as one. -/
def isVersion : Json → Bool
  | .int n => n == version
  | .float x => (Exact.ofFloat x).toInt? == some version
  | .bool b => (if b then 1 else 0) == version
  | _ => false

/-- The settings of the data of a portable file. -/
def ofPortableData (file : String) (data : Json) : Except Fault Settings :=
  match data.field? "settings" with
  | some (.object fields) =>
    let found := (data.field? "version").getD .null
    if isVersion found then readData file (withKeys snakeKey (.object fields))
    else fault file (.unsupportedVersion found.display)
  | _ => fault file .notExport

/-- Reads settings from a portable file. -/
def importFrom (w : Workspace) (path : String) : Except Fault Settings :=
  let file := PathText.normal path
  match w.read path with
  | .error _ => fault file .cannotRead
  | .ok text => match Json.read text with
    | .ok reading => ofPortableData file reading.found.value
    | .error .malformed => fault file .cannotRead
    | .error .tooManyDigits => .error (.number .tooManyDigits)

end DesignTokens.SettingsFile
