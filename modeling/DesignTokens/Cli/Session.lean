import DesignTokens.Workspace.Basic

/-!
# Sessions

What a command does: it works on files and writes lines to two streams, one for its answers and one
for what went wrong. It may stop early, with an exit code or by a fault that is no message for its
user.
-/

namespace DesignTokens.Cli

/-- The files and the streams of a running command. -/
structure Session where
  workspace : Workspace
  output : String := ""
  errors : String := ""

/-- Why a command stops early. -/
inductive Stop where
  /-- The reasons have been written. -/
  | failed
  /-- A fault that has no wording. -/
  | crashed (fault : Fault)

/-- A step of a command. What it has done before it stops stays done. -/
abbrev Step := ExceptT Stop (StateM Session)

/-- Writes a text and a line end. -/
def say (text : String) : Step Unit :=
  modify fun s => { s with output := s.output ++ text ++ "\n" }

/-- Writes a text and a line end to the stream for what went wrong. -/
def complain (text : String) : Step Unit :=
  modify fun s => { s with errors := s.errors ++ text ++ "\n" }

/-- Stops after the reasons have been written. -/
def stop {α : Type} : Step α := throw .failed

/-- The files. -/
def workspace : Step Workspace := return (← get).workspace

/-- Goes on with an answer; any fault stops the command. -/
def demand {α : Type} : Except Fault α → Step α
  | .ok value => return value
  | .error fault => throw (.crashed fault)

/-- Goes on with an answer. A fault of the input is reported with a text in front. -/
def report {α : Type} (label : String) : Except Fault α → Step α
  | .ok value => return value
  | .error fault =>
    if fault.isReported then do
      complain (label ++ ": " ++ fault.message)
      stop
    else throw (.crashed fault)

/-- Changes the files; any fault stops the command. -/
def change (operation : Workspace → Except Fault Workspace) : Step Unit := do
  let w ← demand (operation (← workspace))
  modify fun s => { s with workspace := w }

/-- The exit code of a step and the session after it. -/
def Step.exit (step : Step Unit) (s : Session) : Except Fault Nat × Session :=
  match step.run.run s with
  | (.ok _, s) => (.ok 0, s)
  | (.error .failed, s) => (.ok 1, s)
  | (.error (.crashed fault), s) => (.error fault, s)

end DesignTokens.Cli
