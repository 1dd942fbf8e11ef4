import DesignTokens.Design.Reading
import DesignTokens.Export.Outputs
import DesignTokens.Json.Reader
import DesignTokens.Json.Writer
import DesignTokens.Workspace.Basic

/-!
# Snapshots

A snapshot is a file that holds the variables, collections and styles of a design file. It is read
once, when something of it is asked for first; what has been read and found valid is kept. Saving
replaces the variables and leaves everything else in the file as it was.

What is broken in the file does no harm where nobody asks for it, but it cannot be written again.
-/

namespace DesignTokens

/-- An opened snapshot and what is known of it so far. -/
structure Snapshot where
  path : String
  content : Option Json.Fields := none
  vars : Option (List Variable) := none
  collections : Option (List Collection) := none
  styles : Option Styles := none

namespace Snapshot

/-- Opens the snapshot at a path; nothing is read yet. -/
def atPath (path : String) : Snapshot :=
  { path := PathText.normal path }

/-- How a snapshot is shown. -/
def shown (s : Snapshot) : String :=
  let path := Text.quoted s.path
  s!"JsonSnapshotProvider({path})"

/-- The fault of a snapshot file. -/
def fault {α : Type} (s : Snapshot) (problem : InputProblem) : Except Fault α :=
  .error (.malformedInput (some s.path) problem)

/-- The fields of the file. -/
def readContent (w : Workspace) (s : Snapshot) : Except Fault Json.Fields :=
  if !w.has s.path then .error (.malformedInput none (.snapshotNotFound s.path))
  else do
    let text ← w.read s.path
    match Json.read text with
    | .ok (.object fields) => return fields
    | .ok (.other _) => s.fault .snapshotNotObject
    | .error .malformed => s.fault .invalidJson
    | .error .tooManyDigits => .error (.number .tooManyDigits)

/-- The fields, read from the file if they are not known. -/
def getContent (w : Workspace) (s : Snapshot) :
    Except Fault (Json.Fields × Snapshot) :=
  match s.content with
  | some fields => .ok (fields, s)
  | none => (s.readContent w).map fun fields => (fields, { s with content := some fields })

/-- A section of the fields; a missing or empty one stands for the given value. -/
def section? (name : String) (missing : Json) (fields : Json.Fields) : Json :=
  match OrderedMap.find? name fields.entries with
  | some found => if found.value.isTruthy then found.value else missing
  | none => missing

/-- Reads a section; what does not fit is a fault of the file. -/
def readSection {α : Type} (s : Snapshot) (name : String) (missing : Json)
    (reader : Json → Except Fault α) (fields : Json.Fields) : Except Fault α :=
  match reader (section? name missing fields) with
  | .ok value => .ok value
  | .error _ => s.fault (.invalidSection name)

/-- The variables. -/
def getVariables (w : Workspace) (s : Snapshot) : Except Fault (List Variable × Snapshot) :=
  match s.vars with
  | some vars => .ok (vars, s)
  | none => do
    let (fields, s) ← s.getContent w
    let vars ← s.readSection "variables" (.list []) (Schema.list Variable.read) fields
    return (vars, { s with vars := some vars })

/-- The collections. -/
def getCollections (w : Workspace) (s : Snapshot) : Except Fault (List Collection × Snapshot) :=
  match s.collections with
  | some collections => .ok (collections, s)
  | none => do
    let (fields, s) ← s.getContent w
    let collections ← s.readSection "collections" (.list []) (Schema.list Collection.read) fields
    return (collections, { s with collections := some collections })

/-- The styles. -/
def getStyles (w : Workspace) (s : Snapshot) : Except Fault (Styles × Snapshot) :=
  match s.styles with
  | some styles => .ok (styles, s)
  | none => do
    let (fields, s) ← s.getContent w
    let styles ← s.readSection "styles" (.object []) Styles.read fields
    return (styles, { s with styles := some styles })

/-- The name of the design file; the name of the snapshot itself when it gives none. A broken name is
not handed out. -/
def getFileName (w : Workspace) (s : Snapshot) : Except Fault (String × Snapshot) := do
  let (fields, s) ← s.getContent w
  if (OrderedMap.find? "fileName" fields.entries).all Json.Found.isIntact then
    return ((section? "fileName" (.text (PathText.stem s.path)) fields).asText, s)
  else .error (.file .brokenText)

/-- The snapshot as a source of an export. -/
def source (w : Workspace) (s : Snapshot) : Except Fault ExportSource := do
  let (fileName, s) ← s.getFileName w
  return {
    fileName
    vars := (s.getVariables w).map (·.1)
    collections := (s.getCollections w).map (·.1)
    styles := (s.getStyles w).map fun r => some r.1 }

/-- The fields with other variables. -/
def withVariables (vars : List Variable) (fields : Json.Fields) : Json.Fields :=
  let value := Json.list (vars.map Variable.toJson)
  { fields with entries := OrderedMap.set "variables" { value } fields.entries }

/-- The text of fields as a file. -/
def fileText (fields : List (String × Json)) : String :=
  (Json.object fields).render .indented ++ "\n"

/-- Writes fields to a file. That something is broken shows only when the file has been opened: it
is left empty then. -/
def writeFields (w : Workspace) (path : String) (fields : Json.Fields) :
    Except Fault Unit × Workspace :=
  match fields.intact? with
  | some entries =>
    match (Json.object entries).checkDigits >>= fun _ => w.write path (fileText entries) with
    | .ok w => (.ok (), w)
    | .error fault => (.error fault, w)
  | none =>
    match w.write path "" with
    | .ok w => (.error (.file .brokenText), w)
    | .error fault => (.error fault, w)

/-- Saves variables, to another path if one is given. The snapshot goes on with them if they have
been written. -/
def save (w : Workspace) (s : Snapshot) (vars : List Variable) (path : Option String := none) :
    Except Fault Unit × Workspace × Snapshot :=
  match s.getContent w with
  | .error fault => (.error fault, w, s)
  | .ok (fields, s) =>
    let fields := withVariables vars fields
    match writeFields w (path.getD s.path) fields with
    | (.ok (), w) => (.ok (), w, { s with content := some fields, vars := some vars })
    | (.error fault, w) => (.error fault, w, s)

end Snapshot

end DesignTokens
