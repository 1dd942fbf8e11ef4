import DesignTokens.Cli.Run

/-!
# The program

Reads the files that a command may need, runs the command on them, and writes what has changed. All
decisions are those of the command; here is only the way to the files and the streams.
-/

namespace DesignTokens.Cli

/-- The paths at which settings may stand. -/
def SettingsSource.paths (source : SettingsSource) : List String :=
  source.file.toList ++ [SettingsFile.yamlName, SettingsFile.tomlName].map fun name =>
    PathText.join source.project name

/-- The paths at which a command may read or write. -/
def Command.paths : Command → List String
  | .exportSnapshot snapshot _ _ directory settings =>
    snapshot :: directory.toList ++ settings.paths
  | .serialize snapshot output settings => snapshot :: output.toList ++ settings.paths
  | .convert document _ output settings => document :: output.toList ++ settings.paths
  | .evaluate _ snapshot _ _ => snapshot.toList
  | .syncCalculations snapshot _ settings => snapshot :: settings.paths
  | .syncCodeSyntax snapshot _ _ settings => snapshot :: settings.paths
  | .exportSettings output settings => output :: settings.paths

/-- The paths that arguments name. -/
def namedPaths (args : List String) : List String :=
  match Request.read args with
  | .ok (.run command) => command.paths
  | _ => []

/-- A path and the directories it lies in, the nearest one first. -/
def withParents : Nat → String → List String
  | 0, path => [path]
  | n + 1, path => path :: withParents n (PathText.parent path)

/-- Adds what an opened path leads to. What cannot be read is a directory. -/
def readOpened (w : Workspace) (path : String) (handle : IO.FS.Handle) : IO Workspace :=
  tryCatch (do return w.store path (← handle.readToEnd)) fun _ =>
    return { w with directories := w.directories ++ [w.key path] }

/-- Adds what is at a path to a workspace. -/
def look (w : Workspace) (path : String) : IO Workspace :=
  tryCatch (do readOpened w path (← IO.FS.Handle.mk path .read)) fun _ => return w

/-- The workspace of the named paths. -/
def openWorkspace (paths : List String) : IO Workspace := do
  let all := paths.flatMap fun path => withParents path.length (PathText.normal path)
  all.eraseDups.foldlM look { root := toString (← IO.currentDir) }

/-- Writes the directories and files that are not as they were. -/
def writeChanges (before after : Workspace) : IO Unit := do
  for directory in after.directories do
    if !before.directories.contains directory then IO.FS.createDirAll directory
  for (path, text) in after.files do
    if OrderedMap.find? path before.files != some text then IO.FS.writeFile path text

/-- Runs the program and gives its exit code. -/
def runMain (args : List String) : IO UInt32 := do
  let before ← openWorkspace (namedPaths args)
  let (outcome, session) := runProgram args before
  writeChanges before session.workspace
  IO.print session.output
  IO.eprint session.errors
  match outcome with
  | .ok code => return code.toUInt32
  | .error fault =>
    IO.eprintln s!"Error: {fault.message}"
    return 1

end DesignTokens.Cli

/-- Runs the program. -/
def main (args : List String) : IO UInt32 :=
  DesignTokens.Cli.runMain args
