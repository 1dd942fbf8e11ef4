import DesignTokens.Text.Scan

/-!
# Declarations and headers

What all generated files are made of: a header that says where the file comes from, and declarations
of properties with their values.
-/

namespace DesignTokens

/-- A property with its value. -/
structure Declaration where
  property : String
  value : String
deriving DecidableEq, Repr

namespace Declaration

/-- A declaration as it is written. -/
def text (d : Declaration) : String :=
  d.property ++ ": " ++ d.value ++ ";"

/-- The declaration of a custom property. -/
def custom (name value : String) : Declaration :=
  ⟨"--" ++ name, value⟩

/-- The declaration of a variable in SCSS. -/
def dollar (name value : String) : Declaration :=
  ⟨"$" ++ name, value⟩

end Declaration

/-- The two forms of comments a header can have. -/
inductive HeaderStyle where
  | block
  | line
deriving DecidableEq, Repr

/-- What a header says. -/
structure Header where
  title : String
  /-- The file the content comes from. -/
  source : String
  /-- The time of the export. -/
  generated : String
  /-- A text that is written instead. -/
  banner : Option String := none

namespace Header

/-- The sentences of a header. -/
def sentences (h : Header) : List String :=
  let source := if h.source = "" then "unknown" else h.source
  [h.title, s!"Exported from: {source}", "Generated: " ++ h.generated]

/-- The lines of a header in a style. -/
def lines (style : HeaderStyle) (h : Header) : List String :=
  match style with
  | .block => ["/**"] ++ h.sentences.map (" * " ++ ·) ++ [" */"]
  | .line => ["//"] ++ h.sentences.map ("// " ++ ·) ++ ["//"]

/-- A header with the end of its last line. A banner that is not empty stands for all of it. -/
def text (style : HeaderStyle) (h : Header) : String :=
  match h.banner.filter (· ≠ "") with
  | some banner => banner ++ "\n"
  | none => "\n".intercalate (h.lines style) ++ "\n"

end Header

/-- A file: its header and its lines. -/
def fileText (style : HeaderStyle) (header : Header) (lines : List String) : String :=
  "\n".intercalate (header.text style :: lines)

end DesignTokens
