import Stencil.Attributes.AggregateSpec
import Stencil.Attributes.Store
import Stencil.Dictionary
import Stencil.Error
import Stencil.Evaluation.Library
import Stencil.Evaluation.Outcome
import Stencil.Evaluation.Run
import Stencil.Evaluation.Scope
import Stencil.Format.Conversion
import Stencil.Format.Renderer
import Stencil.Format.Specifier
import Stencil.Group.Basic
import Stencil.Group.FileTree
import Stencil.Group.Loading
import Stencil.GroupFile.Parse
import Stencil.GroupFile.Scan
import Stencil.GroupFile.Token
import Stencil.Instance
import Stencil.Layout.Elements
import Stencil.Layout.Writer
import Stencil.Locale.Basic
import Stencil.Locale.Catalog
import Stencil.Number.Binary64
import Stencil.Number.Decimal
import Stencil.Proofs.Agreement
import Stencil.Proofs.Attributes.Aggregates
import Stencil.Proofs.Attributes.History
import Stencil.Proofs.Attributes.Specs
import Stencil.Proofs.Evaluation.Applications
import Stencil.Proofs.Evaluation.Balanced
import Stencil.Proofs.Evaluation.Chains
import Stencil.Proofs.Evaluation.Depth
import Stencil.Proofs.Evaluation.Errors
import Stencil.Proofs.Evaluation.Executes
import Stencil.Proofs.Evaluation.FirstElement
import Stencil.Proofs.Evaluation.Includes
import Stencil.Proofs.Evaluation.Indentation
import Stencil.Proofs.Evaluation.Interception
import Stencil.Proofs.Evaluation.Leaves
import Stencil.Proofs.Evaluation.Locality
import Stencil.Proofs.Evaluation.Paths
import Stencil.Proofs.Evaluation.Regions
import Stencil.Proofs.Evaluation.Scopes
import Stencil.Proofs.Evaluation.Simulation
import Stencil.Proofs.Evaluation.Whitespace
import Stencil.Proofs.Format.Conversion
import Stencil.Proofs.Format.Grammar
import Stencil.Proofs.Format.Grouping
import Stencil.Proofs.Format.Integers
import Stencil.Proofs.Format.Separators
import Stencil.Proofs.Group.Directory
import Stencil.Proofs.Group.Eager
import Stencil.Proofs.Group.Growth
import Stencil.Proofs.Group.Parameters
import Stencil.Proofs.Group.Replacement
import Stencil.Proofs.GroupFile.Comments
import Stencil.Proofs.GroupFile.ErrorSpans
import Stencil.Proofs.GroupFile.Places
import Stencil.Proofs.GroupFile.Print
import Stencil.Proofs.GroupFile.RoundTrip
import Stencil.Proofs.GroupFile.ScanPrint
import Stencil.Proofs.Layout.Alike
import Stencil.Proofs.Layout.Anchoring
import Stencil.Proofs.Layout.Balanced
import Stencil.Proofs.Layout.Bookkeeping
import Stencil.Proofs.Layout.Columns
import Stencil.Proofs.Layout.Elements
import Stencil.Proofs.Layout.Filling
import Stencil.Proofs.Layout.Fork
import Stencil.Proofs.Layout.Ink
import Stencil.Proofs.Layout.Line
import Stencil.Proofs.Layout.Reindent
import Stencil.Proofs.Layout.Wrapping
import Stencil.Proofs.LineColumn
import Stencil.Proofs.Locale.Fallback
import Stencil.Proofs.Locale.Order
import Stencil.Proofs.Number.Rounding
import Stencil.Proofs.Number.Scientific
import Stencil.Proofs.Template.Comments
import Stencil.Proofs.Template.Erase
import Stencil.Proofs.Template.ErrorSpans
import Stencil.Proofs.Template.EscapeTags
import Stencil.Proofs.Template.ParsePrint
import Stencil.Proofs.Template.Places
import Stencil.Proofs.Template.Print
import Stencil.Proofs.Template.RoundTrip
import Stencil.Proofs.Template.ScanNesting
import Stencil.Proofs.Template.ScanPrint
import Stencil.Proofs.Template.ScanSpans
import Stencil.Proofs.Template.ScanTokens
import Stencil.Proofs.Template.Soundness
import Stencil.Proofs.Text.Literal
import Stencil.Proofs.Text.Position
import Stencil.SyntaxError
import Stencil.Template.Compiled
import Stencil.Template.Node
import Stencil.Template.Parse
import Stencil.Template.Scan
import Stencil.Template.Token
import Stencil.Text.Blank
import Stencil.Text.Case
import Stencil.Text.CaseTable
import Stencil.Text.Quoted
import Stencil.Text.Span
import Stencil.Text.StringLiteral
import Stencil.Text.VisibleTable
import Stencil.Text.Word
import Stencil.Toml.Document
import Stencil.Toml.Item
import Stencil.Toml.Numeral
import Stencil.Toml.Text
import Stencil.Value.Basic
import Stencil.Value.Property
import Stencil.Value.Registry
