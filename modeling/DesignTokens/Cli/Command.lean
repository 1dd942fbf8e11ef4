import DesignTokens.Cli.Arguments
import DesignTokens.Export.Outputs

/-!
# Commands

What a user can ask for, and how it is read from arguments.
-/

namespace DesignTokens.Cli

/-- The version of the program. -/
def programVersion : String := "0.4.0"

/-- The name of the program. -/
def programName : String := "tokenvex"

/-- Where the settings of a command come from: a portable file, or a project directory. -/
structure SettingsSource where
  project : String := "."
  file : Option String := none
deriving DecidableEq, Repr

/-- A command with its options. -/
inductive Command where
  /-- Exports a snapshot, to files in a directory if one is given. -/
  | exportSnapshot (snapshot : String) (types : List ExportType) (route : ExportRoute)
      (directory : Option String) (settings : SettingsSource)
  /-- Turns a snapshot into a token document. -/
  | serialize (snapshot : String) (output : Option String) (settings : SettingsSource)
  /-- Exports a token document. -/
  | convert (document : String) (type : ExportType) (output : Option String)
      (settings : SettingsSource)
  /-- Evaluates an expression, which may name variables of a snapshot. -/
  | evaluate (expression : String) (snapshot : Option String) (mode : String) (unit : CssUnit)
  /-- Evaluates the calculations of a snapshot. -/
  | syncCalculations (snapshot : String) (write : Bool) (settings : SettingsSource)
  /-- Computes the names of the variables of a snapshot in web code, or clears them. -/
  | syncCodeSyntax (snapshot : String) (write reset : Bool) (settings : SettingsSource)
  /-- Writes the settings of a project to a portable file. -/
  | exportSettings (output : String) (settings : SettingsSource)

/-- What arguments ask for. -/
inductive Request where
  | run (command : Command)
  | showVersion
  | showHelp

/-! ### Options -/

/-- The option that asks for help. -/
def helpForm : OptionForm := { name := "help", takesValue := false }

/-- The options before a command. -/
def programForms : List OptionForm :=
  [helpForm, { name := "version", letter := some 'V', takesValue := false },
    { name := "verbose", letter := some 'v', takesValue := false }]

/-- The option for a project directory. -/
def projectForm : OptionForm := { name := "project", letter := some 'p' }

/-- The option for a portable settings file. -/
def settingsForm : OptionForm := { name := "settings", letter := some 's' }

/-- The option for a kind of exported file. -/
def formatForm : OptionForm := { name := "format", letter := some 'f' }

/-- The option for an output file. -/
def outputForm : OptionForm := { name := "output", letter := some 'o' }

/-- The option to write results back. -/
def writeForm : OptionForm := { name := "write", letter := some 'w', takesValue := false }

/-- The options of a command, and what its operand is called. -/
structure CommandForm where
  name : String
  operand : String
  forms : List OptionForm

/-- The form of a command that exports a snapshot. -/
def exportForm : CommandForm :=
  { name := "export"
    operand := "SNAPSHOT"
    forms := [formatForm, { name := "out-dir", letter := some 'o' }, projectForm, settingsForm,
      { name := "direct", takesValue := false }] }

/-- The form of a command that serializes a snapshot. -/
def serializeForm : CommandForm :=
  { name := "serialize", operand := "SNAPSHOT", forms := [outputForm, projectForm, settingsForm] }

/-- The form of a command that converts a document. -/
def convertForm : CommandForm :=
  { name := "convert"
    operand := "DOCUMENT_FILE"
    forms := [formatForm, outputForm, projectForm, settingsForm] }

/-- The form of a command that evaluates an expression. -/
def evaluateForm : CommandForm :=
  { name := "evaluate"
    operand := "EXPRESSION"
    forms := [{ name := "snapshot" }, { name := "mode", letter := some 'm' },
      { name := "unit", letter := some 'u' }] }

/-- The form of a command that evaluates calculations. -/
def syncCalculationsForm : CommandForm :=
  { name := "sync-calculations", operand := "SNAPSHOT", forms := [writeForm, projectForm] }

/-- The form of a command that computes names in web code. -/
def syncCodeSyntaxForm : CommandForm :=
  { name := "sync-code-syntax"
    operand := "SNAPSHOT"
    forms := [writeForm, { name := "reset", takesValue := false }, projectForm] }

/-- The form of a command that writes a portable settings file. -/
def exportSettingsForm : CommandForm :=
  { name := "export-settings", operand := "OUTPUT", forms := [projectForm] }

/-! ### Reading -/

/-- The only operand of a command. -/
def CommandForm.onlyOperand (form : CommandForm) (a : Arguments) : Except UsageProblem String :=
  match a.operands with
  | [] => .error (.missingOperand form.operand)
  | [operand] => .ok operand
  | _ :: extra :: _ => .error (.extraOperand extra)

/-- A value that is one of the names of a choice. -/
def choose {α : Type} (option : String) (ofName? : String → Option α) (text : String) :
    Except UsageProblem α :=
  match ofName? text with
  | some value => .ok value
  | none => .error (.invalidChoice option text)

/-- The settings that options name. -/
def settingsSource (a : Arguments) : SettingsSource :=
  { project := (a.last? projectForm.name).getD ".", file := a.last? settingsForm.name }

/-- Whether an export goes directly. -/
def routeOf (a : Arguments) : ExportRoute :=
  if a.has "direct" then .direct else .document

/-- Reads the arguments of a command. -/
def CommandForm.read (form : CommandForm)
    (build : Arguments → String → Except UsageProblem Command) (args : List String) :
    Except UsageProblem Request := do
  let a ← Arguments.sort (helpForm :: form.forms) true args
  if a.has helpForm.name then return .showHelp
  return .run (← build a (← form.onlyOperand a))

/-- Reads an export of a snapshot. -/
def readExport : List String → Except UsageProblem Request :=
  exportForm.read fun a operand => do
    let types ← (a.all formatForm.name).mapM (choose formatForm.name ExportType.ofName?)
    return .exportSnapshot operand (if types.isEmpty then [.css] else types) (routeOf a)
      (a.last? "out-dir") (settingsSource a)

/-- Reads a conversion of a document. -/
def readConvert : List String → Except UsageProblem Request :=
  convertForm.read fun a operand => do
    let type ← choose formatForm.name ExportType.ofName? ((a.last? formatForm.name).getD "css")
    return .convert operand type (a.last? outputForm.name) (settingsSource a)

/-- Reads an evaluation of an expression. -/
def readEvaluate : List String → Except UsageProblem Request :=
  evaluateForm.read fun a operand => do
    let unit ← choose "unit" CssUnit.ofName? ((a.last? "unit").getD "px")
    return .evaluate operand (a.last? "snapshot") ((a.last? "mode").getD "") unit

/-- Reads the arguments of the command with a name. -/
def readCommand (name : String) (args : List String) : Except UsageProblem Request :=
  match name with
  | "export" => readExport args
  | "serialize" => serializeForm.read (fun a operand =>
      .ok (.serialize operand (a.last? outputForm.name) (settingsSource a))) args
  | "convert" => readConvert args
  | "evaluate" => readEvaluate args
  | "sync-calculations" => syncCalculationsForm.read (fun a operand =>
      .ok (.syncCalculations operand (a.has writeForm.name) (settingsSource a))) args
  | "sync-code-syntax" => syncCodeSyntaxForm.read (fun a operand =>
      .ok (.syncCodeSyntax operand (a.has writeForm.name) (a.has "reset") (settingsSource a))) args
  | "export-settings" => exportSettingsForm.read (fun a operand =>
      .ok (.exportSettings operand (settingsSource a))) args
  | _ => .error (.unknownCommand name)

/-- What the first option before a command asks for, if it asks for anything by itself. -/
def earlyRequest? (a : Arguments) : Option Request :=
  a.options.findSome? fun (name, _) => match name with
    | "help" => some .showHelp
    | "version" => some .showVersion
    | _ => none

/-- Reads the arguments of the program. -/
def Request.read (args : List String) : Except UsageProblem Request := do
  let a ← Arguments.sort programForms false args
  match earlyRequest? a, a.operands with
  | some request, _ => return request
  | none, name :: rest => readCommand name rest
  | none, [] => .error .missingCommand

end DesignTokens.Cli
