import ApiBindings.Assoc
import ApiBindings.Calendar
import ApiBindings.Client.Basic
import ApiBindings.Client.Method
import ApiBindings.Client.Render
import ApiBindings.CommandLine
import ApiBindings.Decimal.Binary64
import ApiBindings.Decimal.Numeral
import ApiBindings.Decimal.Shortest
import ApiBindings.Document.Basic
import ApiBindings.Document.Pointer
import ApiBindings.Document.Read
import ApiBindings.Document.Text
import ApiBindings.FilePath
import ApiBindings.FileSystem.Basic
import ApiBindings.FileSystem.Disk
import ApiBindings.FileSystem.Store
import ApiBindings.Generation.Report
import ApiBindings.Generation.Run
import ApiBindings.Issue
import ApiBindings.Layout
import ApiBindings.Limit
import ApiBindings.Main
import ApiBindings.Model.Basic
import ApiBindings.Model.Render
import ApiBindings.Naming.Case
import ApiBindings.Naming.Distinct
import ApiBindings.Naming.Identifier
import ApiBindings.Naming.PathTemplate
import ApiBindings.Output
import ApiBindings.Proofs.Assoc.Overlay
import ApiBindings.Proofs.FilePath.Join
import ApiBindings.Proofs.FilePath.Resolution
import ApiBindings.Proofs.FileSystem.Change
import ApiBindings.Proofs.FileSystem.Recorded
import ApiBindings.Proofs.FileSystem.Walk
import ApiBindings.Proofs.FileSystem.Write
import ApiBindings.Proofs.Generation.Document
import ApiBindings.Proofs.Generation.Documents
import ApiBindings.Proofs.Generation.Independence
import ApiBindings.Proofs.Generation.Isolation
import ApiBindings.Proofs.Generation.Kept
import ApiBindings.Proofs.Generation.Log
import ApiBindings.Proofs.Generation.Repeat
import ApiBindings.Proofs.Output.Containment
import ApiBindings.Proofs.Output.Files
import ApiBindings.Proofs.Output.Models
import ApiBindings.Proofs.Output.Modules
import ApiBindings.Schema.Node
import ApiBindings.Schema.Read
import ApiBindings.Schema.Type
import ApiBindings.Sorting
import ApiBindings.Text.Base64
import ApiBindings.Text.Blank
import ApiBindings.Text.CaseMap
import ApiBindings.Text.CaseTable
import ApiBindings.Text.CodePoint
import ApiBindings.Text.Digit
import ApiBindings.Text.Lines
import ApiBindings.Text.Printable
import ApiBindings.Text.PrintableTable
import ApiBindings.Text.Quoted
import ApiBindings.Text.Ranges
import ApiBindings.Text.Styled
import ApiBindings.Text.Utf8
import ApiBindings.TypeScript.Literal
import ApiBindings.TypeScript.TypeExpr
import ApiBindings.Value.Entries
import ApiBindings.Value.Graph
import ApiBindings.Value.Scalar
import ApiBindings.Yaml.BlockScalar
import ApiBindings.Yaml.Cursor
import ApiBindings.Yaml.Document
import ApiBindings.Yaml.Fault
import ApiBindings.Yaml.FlowScalar
import ApiBindings.Yaml.Merge
import ApiBindings.Yaml.Node
import ApiBindings.Yaml.ScalarValue
import ApiBindings.Yaml.Tag
import ApiBindings.Yaml.TagNotation
import ApiBindings.Yaml.Token
import ApiBindings.Yaml.Value
import ApiBindings.Proofs.Generation.Account
import ApiBindings.Proofs.Naming.Distinct
import ApiBindings.Proofs.Schema.References
import ApiBindings.Proofs.Model.Imports
import ApiBindings.Proofs.TypeScript.Literal
import ApiBindings.Proofs.TypeScript.Number
import ApiBindings.Proofs.TypeScript.Token
import ApiBindings.Proofs.TypeScript.Grammar
import ApiBindings.Proofs.TypeScript.Spelling
import ApiBindings.Proofs.Schema.TypeText
import ApiBindings.Proofs.Value.Limited
import ApiBindings.Proofs.Value.Container
import ApiBindings.Proofs.Value.Likeness
import ApiBindings.Proofs.Value.Unfolding
import ApiBindings.Proofs.Value.Growth
import ApiBindings.Proofs.Schema.Walk
import ApiBindings.Proofs.Schema.Room
import ApiBindings.Proofs.Schema.Sharing
import ApiBindings.Proofs.Schema.Unrolling
import ApiBindings.Proofs.Schema.Aliases
import ApiBindings.Proofs.Document.Paths
import ApiBindings.Proofs.Schema.Malformed
import ApiBindings.Proofs.Document.Outcome
import ApiBindings.Proofs.Client.Methods
import ApiBindings.Proofs.Client.Statement
import ApiBindings.Proofs.Client.Url
import ApiBindings.Proofs.Client.Distinct
import ApiBindings.Proofs.Client.Members
import ApiBindings.Proofs.Text.Pieces
import ApiBindings.Proofs.Naming.PathTemplate
import ApiBindings.Proofs.Client.Renaming
import ApiBindings.Proofs.Text.CaseMap
import ApiBindings.Proofs.Client.Comment
import ApiBindings.Proofs.Schema.Shape
import ApiBindings.Proofs.Schema.Composition
import ApiBindings.Proofs.Schema.Position
import ApiBindings.Proofs.Schema.Degradation
import ApiBindings.Proofs.Schema.Replacement
import ApiBindings.Proofs.Document.Pointer
import ApiBindings.Proofs.Naming.Identifier
import ApiBindings.Proofs.Naming.Capital
import ApiBindings.Proofs.Naming.Argument
import ApiBindings.Proofs.Client.Names
import ApiBindings.Proofs.Client.Arguments
import ApiBindings.Proofs.TypeScript.Key
import ApiBindings.Proofs.Model.Fields
import ApiBindings.Proofs.Schema.Reference
import ApiBindings.Proofs.Schema.Line
import ApiBindings.Proofs.Model.File
