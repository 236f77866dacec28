import TypeSchema.Annotation
import TypeSchema.Command.Arguments
import TypeSchema.Command.Outcome
import TypeSchema.Decimal.Binary64
import TypeSchema.Decimal.Digits
import TypeSchema.Decimal.Layout
import TypeSchema.Decimal.Shortest
import TypeSchema.Definition.Basic
import TypeSchema.Definition.EnumDeclaration
import TypeSchema.Definition.EnumValues
import TypeSchema.Dict
import TypeSchema.Document
import TypeSchema.Failure
import TypeSchema.Files.Basic
import TypeSchema.Files.Pattern
import TypeSchema.Graph.Basic
import TypeSchema.Graph.Format
import TypeSchema.Json.Basic
import TypeSchema.Json.Decoder
import TypeSchema.Json.Draft
import TypeSchema.Json.Draft.OfText
import TypeSchema.Json.Printer
import TypeSchema.Literal.Basic
import TypeSchema.Literal.Evaluation
import TypeSchema.Literal.Numerals
import TypeSchema.Literal.Strings
import TypeSchema.Loading
import TypeSchema.Main
import TypeSchema.Names
import TypeSchema.Notice
import TypeSchema.Proofs.Annotation.Applied
import TypeSchema.Proofs.Annotation.Comments
import TypeSchema.Proofs.Annotation.Composition
import TypeSchema.Proofs.Annotation.Merging
import TypeSchema.Proofs.Annotation.Precedence
import TypeSchema.Proofs.Annotation.Segments
import TypeSchema.Proofs.Annotation.Tags
import TypeSchema.Proofs.Annotation.Written
import TypeSchema.Proofs.Decimal.Integers
import TypeSchema.Proofs.Decimal.Whole
import TypeSchema.Proofs.Definition.Keywords
import TypeSchema.Proofs.Document.Assembled
import TypeSchema.Proofs.Document.Entries
import TypeSchema.Proofs.Document.Failures
import TypeSchema.Proofs.Document.Titles
import TypeSchema.Proofs.Enums.DefaultOrder
import TypeSchema.Proofs.Enums.Rendered
import TypeSchema.Proofs.Enums.Routes
import TypeSchema.Proofs.Enums.Sorted
import TypeSchema.Proofs.Graph.Aliases
import TypeSchema.Proofs.Graph.Closed
import TypeSchema.Proofs.Graph.Loaded
import TypeSchema.Proofs.Graph.Merged
import TypeSchema.Proofs.Graph.Written
import TypeSchema.Proofs.Json.Canonical
import TypeSchema.Proofs.Json.Decoding
import TypeSchema.Proofs.Json.Distinct
import TypeSchema.Proofs.Json.Equality
import TypeSchema.Proofs.Json.Fields
import TypeSchema.Proofs.Json.Held
import TypeSchema.Proofs.Json.Parts
import TypeSchema.Proofs.Json.Reading
import TypeSchema.Proofs.Json.Sameness
import TypeSchema.Proofs.Json.Scanning
import TypeSchema.Proofs.Literal.Acceptance
import TypeSchema.Proofs.Literal.Embedding
import TypeSchema.Proofs.Literal.Escapes
import TypeSchema.Proofs.Literal.Grammar
import TypeSchema.Proofs.Literal.Notations
import TypeSchema.Proofs.Literal.Numerals
import TypeSchema.Proofs.Literal.RoundTrip
import TypeSchema.Proofs.Literal.Strings
import TypeSchema.Proofs.Literal.Trivia
import TypeSchema.Proofs.Objects.Agreement
import TypeSchema.Proofs.Objects.Annotated
import TypeSchema.Proofs.Objects.Decided
import TypeSchema.Proofs.Objects.Ignored
import TypeSchema.Proofs.Objects.Properties
import TypeSchema.Proofs.Objects.Required
import TypeSchema.Proofs.QualifiedName.Tokens
import TypeSchema.Proofs.References.Collapse
import TypeSchema.Proofs.References.Cycles
import TypeSchema.Proofs.References.Once
import TypeSchema.Proofs.References.Origin
import TypeSchema.Proofs.References.Pointed
import TypeSchema.Proofs.References.Pointer
import TypeSchema.Proofs.References.Positions
import TypeSchema.Proofs.References.Resolution
import TypeSchema.Proofs.References.Stored
import TypeSchema.Proofs.References.Within
import TypeSchema.Proofs.Renaming.Document
import TypeSchema.Proofs.Renaming.Graph
import TypeSchema.Proofs.Renaming.Schema
import TypeSchema.Proofs.Renaming.Shapes
import TypeSchema.Proofs.Renaming.SymbolTable
import TypeSchema.Proofs.Schema.Absence
import TypeSchema.Proofs.Schema.Components
import TypeSchema.Proofs.Schema.Depth
import TypeSchema.Proofs.Schema.Describes
import TypeSchema.Proofs.Schema.Failures
import TypeSchema.Proofs.Schema.Given
import TypeSchema.Proofs.Schema.Guarantee
import TypeSchema.Proofs.Schema.Independence
import TypeSchema.Proofs.Schema.Limit
import TypeSchema.Proofs.Schema.Overlay
import TypeSchema.Proofs.Schema.Parallel
import TypeSchema.Proofs.Schema.Shapes
import TypeSchema.Proofs.Schema.Steps
import TypeSchema.Proofs.Schema.Titles
import TypeSchema.Proofs.Schema.TypeDescribed
import TypeSchema.Proofs.Schema.Unique
import TypeSchema.Proofs.SymbolTable.Agreement
import TypeSchema.Proofs.SymbolTable.Circles
import TypeSchema.Proofs.SymbolTable.Collected
import TypeSchema.Proofs.SymbolTable.Complete
import TypeSchema.Proofs.SymbolTable.Declared
import TypeSchema.Proofs.SymbolTable.Found
import TypeSchema.Proofs.SymbolTable.Nesting
import TypeSchema.Proofs.Text.Octets
import TypeSchema.Proofs.Text.Order
import TypeSchema.Proofs.Text.Surrogates
import TypeSchema.Proofs.Validation.Alike
import TypeSchema.Proofs.Validation.Documents
import TypeSchema.Proofs.Validation.Draft04
import TypeSchema.Proofs.Validation.Form
import TypeSchema.Proofs.Validation.Formed
import TypeSchema.Proofs.Validation.Inlining
import TypeSchema.Proofs.Validation.Known
import TypeSchema.Proofs.Validation.Names
import TypeSchema.Proofs.Validation.Nullable
import TypeSchema.Proofs.Validation.Reduction
import TypeSchema.Proofs.Validation.Shapes
import TypeSchema.Proofs.Validation.Unions
import TypeSchema.Proofs.Validation.WellFormed
import TypeSchema.Proofs.Validation.Widening
import TypeSchema.QualifiedName
import TypeSchema.Run
import TypeSchema.Schema.OfType
import TypeSchema.Schema.Properties
import TypeSchema.Schema.Run
import TypeSchema.Schema.Shape
import TypeSchema.Schema.Union
import TypeSchema.Settings
import TypeSchema.SymbolTable
import TypeSchema.Text.Blank
import TypeSchema.Text.Bytes
import TypeSchema.Text.Letter
import TypeSchema.Text.Quoted
import TypeSchema.Text.Ranges
import TypeSchema.Text.Split
import TypeSchema.Text.Units
import TypeSchema.Text.Word
