import DesignTokens.Cli.Command
import DesignTokens.Cli.Session
import DesignTokens.SettingsCheck
import DesignTokens.Sync
import DesignTokens.Token.Decoding
import DesignTokens.Workspace.SettingsFile
import DesignTokens.Workspace.Snapshot

/-!
# Running commands

Each command reads its settings and its input, computes its answer and writes it. Nothing is written
to a file before the answer is complete.
-/

namespace DesignTokens.Cli

/-! ### Input and output -/

/-- Reads the settings of a command. -/
def loadSettings (source : SettingsSource) : Step Settings := do
  let w ← workspace
  report "Settings error" <| match source.file with
    | some file => SettingsFile.importFrom w file
    | none => SettingsFile.load w source.project (w.absolute source.project) true

/-- Opens the snapshot at a path, which has to exist. -/
def openSnapshot (path : String) : Step Snapshot := do
  if !(← workspace).has path then
    complain s!"Snapshot not found: {PathText.normal path}"
    stop
  return Snapshot.atPath path

/-- The variables and the collections of a snapshot, with what is known of it then. -/
def readLibrary (label : String) (snapshot : Snapshot) : Step (Library × Snapshot) := do
  let w ← workspace
  let (vars, snapshot) ← report label (snapshot.getVariables w)
  let (collections, snapshot) ← report label (snapshot.getCollections w)
  return (⟨vars, collections⟩, snapshot)

/-- A text that ends with a line end. -/
def withLineEnd (text : String) : String :=
  if text.toList.getLast? = some '\n' then text else text ++ "\n"

/-- Writes a text to a file. -/
def writeFile (path text : String) : Step Unit := do
  change fun w => w.write path (withLineEnd text)
  say s!"Wrote {PathText.normal path}"

/-- Writes a text to a file if one is given. -/
def writeText (output : Option String) (text : String) : Step Unit := do
  match output with
  | none => say text
  | some path =>
    change fun w => w.makeDirectory (PathText.parent (PathText.normal path))
    writeFile path text

/-! ### Exports -/

/-- The ending of the names of files of a kind. -/
def extension : ExportType → String
  | .css => "css"
  | .scss => "scss"
  | .json => "json"
  | .typescript => "ts"

/-- Writes the findings on settings; errors stop the command. -/
def reportCheck (check : SettingsCheck) : Step Unit := do
  for warning in check.warnings do complain s!"Warning: {warning}"
  if !check.isValid then
    for error in check.errors do complain s!"Error: {error}"
    stop

/-- Exports a snapshot. -/
def exportSnapshot (path : String) (types : List ExportType) (route : ExportRoute)
    (directory : Option String) (source : SettingsSource) : Step Unit := do
  let label := "Export failed"
  let settings ← loadSettings source
  let snapshot ← openSnapshot path
  let (library, snapshot) ← readLibrary label snapshot
  reportCheck (SettingsCheck.ofSettings settings (some library.vars)
    (some library.collections))
  let records ← report label (snapshot.source (← workspace))
  let exports ← report label (records.exports route settings types "")
  match directory with
  | none => for (_, text) in exports.outputs do say text
  | some directory =>
    change fun w => w.makeDirectory directory
    for (type, text) in exports.outputs do
      writeFile (PathText.join directory s!"{PathText.stem path}.{extension type}") text

/-- Turns a snapshot into a token document. -/
def serialize (path : String) (output : Option String) (source : SettingsSource) : Step Unit := do
  let label := "Serialization failed"
  let settings ← loadSettings source
  let snapshot ← openSnapshot path
  let records ← report label (snapshot.source (← workspace))
  let document ← report label (records.toDocument settings "")
  writeText output (document.toJsonText settings)

/-- Exports a token document. -/
def convert (path : String) (type : ExportType) (output : Option String)
    (source : SettingsSource) : Step Unit := do
  let label := "Conversion failed"
  let settings ← loadSettings source
  let file := PathText.normal path
  if !(← workspace).has path then
    complain s!"Document not found: {file}"
    stop
  let text ← demand ((← workspace).read path)
  match Json.read text with
  | .error .malformed =>
    complain s!"Invalid JSON in {file}: {detailMark}"
    stop
  | .error .tooManyDigits => demand (.error (.number .tooManyDigits))
  | .ok reading =>
    match reading.intact? with
    | none => demand (.error (.file .brokenText))
    | some data =>
      let document ← report label (Document.read data)
      writeText output (← report label (document.toText settings type))

/-! ### Calculations -/

/-- The id of the mode with an id or a name; an empty one when there is none. -/
def findMode (collections : List Collection) (mode : String) : String :=
  if mode = "" then ""
  else (((collections.flatMap (·.modes)).find? fun m => m.id == mode || m.name == mode).map
    (·.id)).getD ""

/-- Evaluates an expression and writes its value. -/
def evaluate (expression : String) (snapshot : Option String) (mode : String) (unit : CssUnit) :
    Step Unit := do
  let library ← match snapshot with
    | none => pure ⟨[], []⟩
    | some path => do pure (← readLibrary "Error" (← openSnapshot path)).1
  let scope : Scope := { library with }
  let formatting : Formatting := { expression := some expression, unit }
  let result ← report "Error" (scope.calculate formatting (findMode library.collections mode))
  for warning in result.warnings do complain s!"Warning: {warning}"
  match result.value with
  | none => stop
  | some x => say ((← demand (Number.rounded none x)) ++ result.unit.suffix)

/-- Saves variables to their snapshot. -/
def saveVariables (snapshot : Snapshot) (vars : List Variable) : Step Unit := do
  let (outcome, w, _) := snapshot.save (← workspace) vars
  modify fun s => { s with workspace := w }
  demand outcome
  say s!"Updated {snapshot.path}"

/-- Evaluates the calculations of a snapshot, and saves the values if `write` is set. -/
def syncCalculations (path : String) (write : Bool) (source : SettingsSource) : Step Unit := do
  let settings ← loadSettings source
  let snapshot ← openSnapshot path
  let (library, snapshot) ← readLibrary "Error" snapshot
  let summary ← demand (CalculationReport.ofLibrary library settings)
  for warning in summary.warnings do say warning
  say s!"{summary.synced} synced, {summary.failed} failed"
  if write && !summary.updates.isEmpty then saveVariables snapshot (summary.apply library.vars)
  if summary.failed != 0 then stop

/-- Computes the names of the variables of a snapshot in web code, or clears them if `reset` is set,
and saves them if `write` is set. -/
def syncCodeSyntax (path : String) (write reset : Bool) (source : SettingsSource) :
    Step Unit := do
  let settings ← loadSettings source
  let snapshot ← openSnapshot path
  let (vars, snapshot) ← report "Error" (snapshot.getVariables (← workspace))
  let rules := CssName.rulesWithDefault settings.rules settings.namePrefix settings.casing
  let summary ← demand <|
    if reset then .ok (CodeSyntaxReport.clearing vars)
    else CodeSyntaxReport.ofRules vars settings.namePrefix rules
  say s!"{summary.synced} synced, {summary.skipped} skipped"
  if write && !summary.codeSyntax.isEmpty then saveVariables snapshot (summary.apply vars)

/-- Writes the settings of a project to a portable file. -/
def exportSettings (output : String) (source : SettingsSource) : Step Unit := do
  let settings ← loadSettings source
  change fun w => SettingsFile.exportTo w output settings
  say s!"Wrote {PathText.normal output}"

/-! ### Requests -/

/-- Runs a command. -/
def Command.run : Command → Step Unit
  | .exportSnapshot snapshot types route directory settings =>
    Cli.exportSnapshot snapshot types route directory settings
  | .serialize snapshot output settings => Cli.serialize snapshot output settings
  | .convert document type output settings => Cli.convert document type output settings
  | .evaluate expression snapshot mode unit => Cli.evaluate expression snapshot mode unit
  | .syncCalculations snapshot write settings => Cli.syncCalculations snapshot write settings
  | .syncCodeSyntax snapshot write reset settings =>
    Cli.syncCodeSyntax snapshot write reset settings
  | .exportSettings output settings => Cli.exportSettings output settings

/-- How the program is called. -/
def usage : String :=
  s!"Usage: {programName} [OPTIONS] COMMAND [ARGS]..."

/-- Answers a request. -/
def Request.answer : Request → Step Unit
  | .run command => command.run
  | .showVersion => say s!"{programName} {programVersion}"
  | .showHelp => say usage

/-- The exit code for arguments that cannot be read. -/
def usageExit : Nat := 2

/-- Runs the program with its arguments on files. -/
def runProgram (args : List String) (w : Workspace) : Except Fault Nat × Session :=
  let s : Session := { workspace := w }
  match Request.read args with
  | .ok request => request.answer.exit s
  | .error problem =>
    (.ok usageExit, { s with errors := usage ++ "\nError: " ++ problem.message ++ "\n" })

end DesignTokens.Cli
