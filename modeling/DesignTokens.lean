import DesignTokens.Text.Case
import DesignTokens.Json.Reader
import DesignTokens.Json.Writer
import DesignTokens.Number
import DesignTokens.Color.Text
import DesignTokens.Expr.Calculation
import DesignTokens.Directive
import DesignTokens.Rename.Cache
import DesignTokens.Name.Format
import DesignTokens.Name.Order
import DesignTokens.Design.Reading
import DesignTokens.Settings
import DesignTokens.Resolve.Value
import DesignTokens.Resolve.Style
import DesignTokens.Token.Decoding
import DesignTokens.Token.Compact
import DesignTokens.Sheet.Css
import DesignTokens.Sheet.Scss
import DesignTokens.Export.DocumentNames
import DesignTokens.Token.FromLibrary
import DesignTokens.Export.DocumentScss
import DesignTokens.Export.Direct
import DesignTokens.Export.Outputs
import DesignTokens.Sync
import DesignTokens.Workspace.Basic
import DesignTokens.SettingsCheck
import DesignTokens.Workspace.Snapshot
import DesignTokens.Workspace.SettingsFile
import DesignTokens.Main
import DesignTokens.Yaml.Writer
import DesignTokens.Yaml.Reader
import DesignTokens.Toml.Reader
import DesignTokens.Proofs.Expr.Acceptance
import DesignTokens.Proofs.Expr.Numerals
import DesignTokens.Proofs.Resolve.AliasWalk
import DesignTokens.Proofs.Expr.Parsing
import DesignTokens.Proofs.Decimal.WholeNumber
import DesignTokens.Proofs.Token.Same
import DesignTokens.Proofs.Token.Tree
import DesignTokens.Proofs.Outcome
import DesignTokens.Proofs.Separators
import DesignTokens.Proofs.Token.Styles
import DesignTokens.Proofs.Token.Values
import DesignTokens.Proofs.Token.Reserved
import DesignTokens.Proofs.Token.RoundTrip
import DesignTokens.Proofs.Token.Library
import DesignTokens.Proofs.Number
import DesignTokens.Proofs.Export.Sheets
import DesignTokens.Proofs.Token.Places
import DesignTokens.Proofs.Export.Routes
import DesignTokens.Proofs.Token.Lookup
import DesignTokens.Proofs.Token.Contents
import DesignTokens.Proofs.Export.DeclaredNames
import DesignTokens.Proofs.Token.DottedPath
import DesignTokens.Proofs.Export.Selection
import DesignTokens.Proofs.Export.References
import DesignTokens.Proofs.Export.AliasCycles
import DesignTokens.Proofs.Token.PathLookup
import DesignTokens.Proofs.Export.PropertyNames
import DesignTokens.Proofs.Export.Rules
import DesignTokens.Proofs.Export.ClassNames
import DesignTokens.Proofs.Export.ModeBlocks
import DesignTokens.Proofs.Export.DefaultValues
import DesignTokens.Proofs.Export.ExportedNames
import DesignTokens.Proofs.Expr.WrittenReferences
import DesignTokens.Proofs.Export.FlatValues
import DesignTokens.Proofs.Name.Characters
import DesignTokens.Proofs.Resolve.Calculation
import DesignTokens.Proofs.Export.ReferenceClosure
import DesignTokens.Proofs.Token.Completeness
import DesignTokens.Proofs.Token.Reordering
import DesignTokens.Proofs.Export.PlainMode
import DesignTokens.Proofs.Decimal.Rounding
import DesignTokens.Proofs.Decimal.Nearest
import DesignTokens.Proofs.Decimal.ShortestDigits
import DesignTokens.Proofs.Decimal.Numerals
import DesignTokens.Proofs.Json.Scalars
import DesignTokens.Proofs.Json.RoundTrip
import DesignTokens.Proofs.Json.Lines
import DesignTokens.Proofs.Design.Records
import DesignTokens.Proofs.Design.ValueForms
import DesignTokens.Proofs.Workspace.Files
import DesignTokens.Proofs.Workspace.Snapshots
import DesignTokens.Proofs.Workspace.Coherence
import DesignTokens.Proofs.Workspace.WriteBack
import DesignTokens.Proofs.Faults
import DesignTokens.Proofs.Resolve.ChangedValues
import DesignTokens.Proofs.Sync.Evaluations
import DesignTokens.Proofs.Sync.Accounting
import DesignTokens.Proofs.Sync.SecondRun
import DesignTokens.Proofs.Sync.CodeNames
import DesignTokens.Proofs.Token.Malformed
import DesignTokens.Proofs.Token.InsertionOrder
import DesignTokens.Proofs.Export.Mixins
import DesignTokens.Proofs.Export.ScssReferences
import DesignTokens.Proofs.Token.Compaction
import DesignTokens.Proofs.Expr.Outcomes
import DesignTokens.Proofs.Expr.BareNames
import DesignTokens.Proofs.Resolve.Conversion
import DesignTokens.Proofs.Workspace.SettingsFiles
import DesignTokens.Token.InPlace
import DesignTokens.Proofs.Rename.Matching
import DesignTokens.Proofs.Rename.Captures
import DesignTokens.Proofs.Rename.Division
import DesignTokens.Proofs.Token.InPlace
import DesignTokens.Proofs.Decimal.Range
import DesignTokens.Proofs.Color.HueCircle
import DesignTokens.Proofs.Color.Forms
import DesignTokens.Proofs.Color.Notations
import DesignTokens.Proofs.Color.Channels
import DesignTokens.Proofs.Color.Outcomes
import DesignTokens.Proofs.Resolve.QuotedTexts
import DesignTokens.Proofs.Text.Digits
import DesignTokens.Proofs.Text.CaseRows
import DesignTokens.Proofs.Name.Runs
import DesignTokens.Proofs.Name.NaturalOrder
import DesignTokens.Proofs.Name.DefaultTransform
import DesignTokens.Proofs.Name.DefaultRule
import DesignTokens.Proofs.Decimal.FixedPlaces
import DesignTokens.Proofs.RoundedNumbers
import DesignTokens.Proofs.Resolve.HiddenLayers
import DesignTokens.Proofs.Decimal.Positive
import DesignTokens.Proofs.Resolve.RemBase
import DesignTokens.Proofs.Expr.QuotedPaths
import DesignTokens.Proofs.Resolve.PathLookups
import DesignTokens.Proofs.Directive.Keywords
import DesignTokens.Proofs.Directive.Written
import DesignTokens.Proofs.Directive.Order
import DesignTokens.Proofs.Expr.Spelling
import DesignTokens.Proofs.Expr.Spacing
import DesignTokens.Proofs.Expr.FaultPositions
import DesignTokens.Proofs.Sheet.VariableCalls
