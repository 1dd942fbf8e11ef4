/-!
# Faults

Why a computation has no answer. Each constructor is one cause; `Fault.message` gives the wording of
those that are reported to a user.
-/

namespace DesignTokens

/-- Why a token does not fit into a tree. -/
inductive TreeConflict where
  /-- The path has no segments. -/
  | emptyPath
  /-- A segment before the last one names a token. -/
  | throughToken (tokenPath path : List String)
  /-- The whole path names a group. -/
  | overGroup (path : List String)
deriving DecidableEq, Repr

/-- What is wrong with a token document or a snapshot. -/
inductive InputProblem where
  | unknownTokenType (shown : String)
  | invalidTokenValue
  | missingValue
  | notTokenOrGroup (key : String)
  | noCollections
  | snapshotNotFound (path : String)
  | invalidJson
  | snapshotNotObject
  | invalidSection (name : String)
deriving DecidableEq, Repr

/-- What is wrong with a settings file. -/
inductive SettingsProblem where
  | notFound
  | empty
  | notMapping
  | invalidSchema
  | invalidYaml
  | invalidToml
  | cannotRead
  | notExport
  | unsupportedVersion (shown : String)
deriving DecidableEq, Repr

/-- Why a number cannot be written or turned into a whole number. -/
inductive NumberProblem where
  /-- A text is not a decimal numeral. -/
  | malformedNumeral
  /-- A whole number has too many digits to be read or written. -/
  | tooManyDigits
  /-- A number of decimal places is negative or too large. -/
  | placesOutOfRange
  /-- NaN has no nearest whole number. -/
  | notANumber
  /-- An infinity has no nearest whole number. -/
  | infinite
  /-- A power of finite numbers is out of range. -/
  | powerOverflow
  /-- An angle is infinite. -/
  | infiniteAngle
  | divisionByZero
deriving DecidableEq, Repr

/-- Why a file or a directory cannot be used. -/
inductive FileProblem where
  | missing
  | isDirectory
  /-- The path leads through a file. -/
  | notDirectory
  /-- A file stands where a directory is to be made. -/
  | occupied
  /-- A text has half of a pair of numbers that spell one character together, without the other. -/
  | brokenText
deriving DecidableEq, Repr

/-- Why a computation has no answer. -/
inductive Fault where
  /-- A short path names variables of several collections. -/
  | ambiguousReference (path : String) (collections : List String)
  | treeConflict (conflict : TreeConflict)
  /-- A rename pattern is empty or blank. -/
  | blankPattern
  /-- A token document or a snapshot is malformed; the file is named when it is known. -/
  | malformedInput (file : Option String) (problem : InputProblem)
  /-- A settings file is malformed. -/
  | malformedSettings (file : String) (problem : SettingsProblem)
  /-- A record does not have the shape its schema asks for. -/
  | invalidRecord
  | number (problem : NumberProblem)
  /-- A word is none of the names of a choice. -/
  | unknownName
  /-- A gradient transform lacks a row or a column. -/
  | shortTransform
  /-- A value that must be an object is none. -/
  | notAnObject
  /-- A collection of a document does not exist. -/
  | unknownCollection
  | file (problem : FileProblem)
deriving DecidableEq, Repr

/-- Stands in messages for the explanation that the reader of a file format gives. -/
def detailMark : String := "<detail>"

/-- A path as messages show it. -/
def shownPath (path : List String) : String :=
  "/".intercalate path

/-- The wording of a tree conflict. -/
def TreeConflict.message : TreeConflict → String
  | emptyPath => "Cannot insert a token at an empty path"
  | throughToken tokenPath path =>
    s!"'{shownPath tokenPath}' is a token and cannot contain '{shownPath path}'"
  | overGroup path => s!"'{shownPath path}' is a group and cannot also be a token"

/-- The wording of a problem of a document or a snapshot. -/
def InputProblem.message : InputProblem → String
  | unknownTokenType shown => s!"Unknown token type: {shown}"
  | invalidTokenValue => s!"Invalid token value: {detailMark}"
  | missingValue => "Token is missing $value"
  | notTokenOrGroup key => s!"Expected a token or group at '{key}'"
  | noCollections => "Token document must contain a 'collections' object"
  | snapshotNotFound path => s!"Snapshot not found: {path}"
  | invalidJson => s!"Invalid JSON: {detailMark}"
  | snapshotNotObject => "Snapshot must be a JSON object"
  | invalidSection name => s!"Invalid '{name}' in snapshot: {detailMark}"

/-- The wording of a problem of a settings file. -/
def SettingsProblem.message (file : String) : SettingsProblem → String
  | notFound => s!"Settings not found: {file}"
  | empty => s!"Empty or invalid YAML in {file}"
  | notMapping => s!"Settings in {file} must be a mapping"
  | invalidSchema => s!"Invalid settings schema in {file}: {detailMark}"
  | invalidYaml => s!"Invalid YAML in {file}: {detailMark}"
  | invalidToml => s!"Invalid TOML in {file}: {detailMark}"
  | cannotRead => s!"Cannot read settings export {file}: {detailMark}"
  | notExport => s!"Not a settings export: {file}"
  | unsupportedVersion shown => s!"Unsupported settings export version {shown} in {file}"

/-- The wording of a problem of a number. -/
def NumberProblem.message : NumberProblem → String
  | malformedNumeral => "The text is not a decimal number"
  | tooManyDigits => "A whole number has too many digits"
  | placesOutOfRange => "The number of decimal places is out of range"
  | notANumber => "NaN has no nearest whole number"
  | infinite => "An infinity has no nearest whole number"
  | powerOverflow => "A power is out of range"
  | infiniteAngle => "An infinite angle has no sine"
  | divisionByZero => "Division by zero"

/-- The wording of a problem of a file. -/
def FileProblem.message : FileProblem → String
  | missing => "The file or directory does not exist"
  | isDirectory => "The path leads to a directory"
  | notDirectory => "The path leads through a file"
  | occupied => "The path leads to a file"
  | brokenText => "A text has half of a character"

/-- A message under the place it is about: a file, perhaps with a token path. -/
def located (file : String) (tokenPath : Option String) (message : String) : String :=
  match tokenPath with
  | some path => if path = "" then s!"{file}\n{message}" else s!"{file} (token {path})\n{message}"
  | none => s!"{file}\n{message}"

/-- The wording of a fault. -/
def Fault.message : Fault → String
  | ambiguousReference path collections =>
    let names := ", ".intercalate collections
    s!"Ambiguous reference '{path}' matches variables in multiple collections: {names}. " ++
      "Use the full 'Collection/name' path."
  | treeConflict conflict => conflict.message
  | blankPattern => "Glob pattern is empty"
  | malformedInput none problem => problem.message
  | malformedInput (some place) problem => located place none problem.message
  | malformedSettings place problem => problem.message place
  | invalidRecord => "The record does not fit its schema"
  | number problem => problem.message
  | unknownName => "The name is none of those allowed"
  | shortTransform => "The gradient transform is too short"
  | notAnObject => "The value is not an object"
  | unknownCollection => "The collection does not exist"
  | file problem => problem.message

/-- The fault is one of the input, to be reported by its message. -/
def Fault.isReported : Fault → Bool
  | ambiguousReference .. | treeConflict _ | blankPattern | malformedInput .. |
    malformedSettings .. => true
  | _ => false

end DesignTokens
