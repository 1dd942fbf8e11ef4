import DesignTokens.Export.Direct
import DesignTokens.Token.FromLibrary

/-!
# Outputs

An export turns the records of a source into a text for each kind of file that is asked for. It goes
by a document, from which all texts are made, or directly, in which case only JSON needs a document.
The styles of a source are read only when they are exported.
-/

namespace DesignTokens

/-- The ways an export can go. -/
inductive ExportRoute where
  | document
  | direct
deriving DecidableEq, Repr

/-- Where the records of an export come from. Reading a part may fail. -/
structure ExportSource where
  fileName : String := ""
  vars : Except Fault (List Variable)
  collections : Except Fault (List Collection)
  styles : Except Fault (Option Styles) := .ok none

/-- The texts of an export by their kinds, and how often the styles of the source were read. -/
structure Exports where
  outputs : List (ExportType × String)
  styleReads : Nat := 0

namespace Document

/-- The text of a kind for a document. -/
def toText (d : Document) (s : Settings) : ExportType → Except Fault String
  | .css => d.toCss s
  | .scss => d.toScss s
  | .typescript => d.toTypeScript s
  | .json => .ok (d.toJsonText s)

/-- The texts of several kinds, each kind once, in the order of their first occurrence. -/
def outputs (d : Document) (s : Settings) (types : List ExportType) :
    Except Fault (List (ExportType × String)) :=
  types.eraseDups.mapM fun type => do return (type, ← d.toText s type)

end Document

namespace ExportSource

/-- The styles, when settings include them. -/
def includedStyles (source : ExportSource) (s : Settings) : Except Fault (Option Styles) :=
  if s.includeStyles then source.styles else .ok none

/-- How often one reading of the included styles reads the styles of the source. -/
def readsPerUse (s : Settings) : Nat :=
  if s.includeStyles then 1 else 0

/-- The document of a source. -/
def toDocument (source : ExportSource) (s : Settings) (generatedAt : String) :
    Except Fault Document := do
  let styles ← source.includedStyles s
  let vars ← source.vars
  let collections ← source.collections
  Document.ofLibrary ⟨vars, collections⟩ s s.documentOptions styles source.fileName generatedAt

/-- An export by a document. -/
def exportsByDocument (source : ExportSource) (s : Settings) (types : List ExportType)
    (generatedAt : String) : Except Fault Exports := do
  let document ← source.toDocument s generatedAt
  return ⟨← document.outputs s types, readsPerUse s⟩

/-- The text of a kind in a direct export. -/
def directText (source : ExportSource) (e : DirectExport) : ExportType → Except Fault String
  | .css => e.toCss
  | .scss => e.toScss
  | .typescript => e.toTypeScript
  | .json => do return (← source.toDocument e.settings e.generatedAt).toJsonText e.settings

/-- A direct export. -/
def exportsDirectly (source : ExportSource) (s : Settings) (types : List ExportType)
    (generatedAt : String) : Except Fault Exports := do
  let vars ← source.vars
  let collections ← source.collections
  let styles ← source.includedStyles s
  let e : DirectExport := {
    library := ⟨vars, collections⟩
    settings := s
    sourceFile := source.fileName
    styles
    generatedAt := timestamp generatedAt }
  let outputs ← types.eraseDups.mapM fun type => do return (type, ← source.directText e type)
  return ⟨outputs, readsPerUse s * if types.contains .json then 2 else 1⟩

/-- An export by a route. -/
def exports (source : ExportSource) (route : ExportRoute) (s : Settings)
    (types : List ExportType) (generatedAt : String) : Except Fault Exports :=
  match route with
  | .document => source.exportsByDocument s types generatedAt
  | .direct => source.exportsDirectly s types generatedAt

end ExportSource

end DesignTokens
