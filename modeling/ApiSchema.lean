import ApiSchema.Calendar
import ApiSchema.CommandLine.Help
import ApiSchema.CommandLine.Options
import ApiSchema.CommandLine.Outcome
import ApiSchema.CommandLine.Request
import ApiSchema.Conversion
import ApiSchema.Document
import ApiSchema.Document.Loading
import ApiSchema.Fault
import ApiSchema.Files.FileSystem
import ApiSchema.Files.Loader
import ApiSchema.Files.Path
import ApiSchema.Files.Refusal
import ApiSchema.Files.Store
import ApiSchema.Json.Reader
import ApiSchema.Json.Writer
import ApiSchema.Main
import ApiSchema.Numeric.Binary64
import ApiSchema.Numeric.Decimal
import ApiSchema.Numeric.Layout
import ApiSchema.Numeric.Shortest
import ApiSchema.Pointer
import ApiSchema.Reference.Inline
import ApiSchema.Reference.Resolve
import ApiSchema.Rendering
import ApiSchema.Scalar
import ApiSchema.Schema.Draft4
import ApiSchema.Schema.Shape
import ApiSchema.Schema.Walk
import ApiSchema.Settings
import ApiSchema.Settings.Loading
import ApiSchema.Settings.Scaffold
import ApiSchema.Text.Blank
import ApiSchema.Text.ControlSequence
import ApiSchema.Text.DecimalDigit
import ApiSchema.Text.Hex
import ApiSchema.Text.Pieces
import ApiSchema.Text.Printable
import ApiSchema.Text.Quoted
import ApiSchema.Text.Similarity
import ApiSchema.Trace
import ApiSchema.Value.Basic
import ApiSchema.Value.Entries
import ApiSchema.Value.Literal
import ApiSchema.Yaml.Base64
import ApiSchema.Yaml.Cursor
import ApiSchema.Yaml.Lexer
import ApiSchema.Yaml.Loader
import ApiSchema.Yaml.Malformed
import ApiSchema.Yaml.Node
import ApiSchema.Yaml.Number
import ApiSchema.Yaml.ScalarText
import ApiSchema.Yaml.Tag
import ApiSchema.Yaml.Token
import ApiSchema.Yaml.Value
import ApiSchema.Proofs.Schema.Content
import ApiSchema.Proofs.Parts
import ApiSchema.Proofs.Schema.Replace
import ApiSchema.Proofs.Result
import ApiSchema.Proofs.Schema.Walk
import ApiSchema.Proofs.Schema.Dialect
import ApiSchema.Proofs.Reference.Graph
import ApiSchema.Proofs.Reference.Expansion
import ApiSchema.Proofs.KeyOrder
import ApiSchema.Proofs.TextKeys
import ApiSchema.Proofs.Reference.Acyclic
import ApiSchema.Proofs.Reference.Unfolding
import ApiSchema.Proofs.Reference.Meaning
import ApiSchema.Proofs.Schema.Meaning
import ApiSchema.Proofs.Reference.Termination
import ApiSchema.Proofs.Schema.Rejection
import ApiSchema.Proofs.Conversion.Failure
import ApiSchema.Proofs.DistinctKeys
import ApiSchema.Proofs.Yaml.DistinctKeys
import ApiSchema.Proofs.Document.Selection
import ApiSchema.Proofs.Reference.Locality
import ApiSchema.Proofs.Schema.Reordering
import ApiSchema.Proofs.Reference.Reordering
import ApiSchema.Proofs.Conversion.Reordering
import ApiSchema.Proofs.Files.Frame
import ApiSchema.Proofs.Conversion.Output
import ApiSchema.Proofs.Json.Reading
import ApiSchema.Proofs.Rendering
import ApiSchema.Proofs.Schema.Calls
import ApiSchema.Proofs.Schema.Traversal
import ApiSchema.Proofs.Schema.PostOrder
import ApiSchema.Proofs.CommandLine.Outcome
import ApiSchema.Proofs.Files.Reading
import ApiSchema.Proofs.Value.Tree
import ApiSchema.Proofs.Reference.Stopping
import ApiSchema.Proofs.Json.Obstacle
import ApiSchema.Proofs.Conversion.Escape
import ApiSchema.Proofs.CommandLine.Arguments
import ApiSchema.Proofs.Conversion.Batch
import ApiSchema.Proofs.Schema.Nullability
import ApiSchema.Proofs.Schema.TypeClause
import ApiSchema.Proofs.Reference.Closed
import ApiSchema.Proofs.Schema.Exchange
import ApiSchema.Proofs.Reference.Siblings
import ApiSchema.Proofs.Reference.Spelling
import ApiSchema.Proofs.Schema.Remapping
import ApiSchema.Proofs.Reference.Circuit
import ApiSchema.Proofs.Negation
import ApiSchema.Proofs.Pointer.Canonical
import ApiSchema.Proofs.Pointer.Unescaped
import ApiSchema.Proofs.Reference.Resolution
import ApiSchema.Proofs.Reference.Missing
import ApiSchema.Proofs.Text.Trimming
import ApiSchema.Proofs.Settings
import ApiSchema.Proofs.Pointer.LeftToRight
import ApiSchema.Proofs.Settings.Areas
import ApiSchema.Proofs.Settings.Again
import ApiSchema.Proofs.Settings.Scaffold
import ApiSchema.Proofs.Files.Changes
import ApiSchema.Proofs.Session
