import SchemaCodegen.Artifact.Naming
import SchemaCodegen.Command.Generators
import SchemaCodegen.Command.Launch
import SchemaCodegen.Command.Runner
import SchemaCodegen.Command.SearchPath
import SchemaCodegen.Command.Shell
import SchemaCodegen.CommandLine.Application
import SchemaCodegen.CommandLine.Arguments
import SchemaCodegen.CommandLine.Echo
import SchemaCodegen.CommandLine.Options
import SchemaCodegen.CommandLine.Request
import SchemaCodegen.CommandLine.Usage
import SchemaCodegen.CommandLine.UsageFault
import SchemaCodegen.Config.Basic
import SchemaCodegen.Config.Dictionary
import SchemaCodegen.Config.File
import SchemaCodegen.Decimal.Binary64
import SchemaCodegen.Decimal.Shortest
import SchemaCodegen.Fault
import SchemaCodegen.FileTree.Access
import SchemaCodegen.FileTree.Basic
import SchemaCodegen.FileTree.Fault
import SchemaCodegen.FileTree.Resolve
import SchemaCodegen.Generation
import SchemaCodegen.Json.Literal
import SchemaCodegen.Json.Reader
import SchemaCodegen.Json.Value
import SchemaCodegen.Log.Basic
import SchemaCodegen.Log.Hierarchy
import SchemaCodegen.Main
import SchemaCodegen.Nesting
import SchemaCodegen.Outcome
import SchemaCodegen.Path.Basic
import SchemaCodegen.Rename
import SchemaCodegen.Schema.Directive
import SchemaCodegen.Schema.Source
import SchemaCodegen.Schema.TypeName
import SchemaCodegen.Text.Handover
import SchemaCodegen.Text.Hexadecimal
import SchemaCodegen.Text.LineEnding
import SchemaCodegen.Text.Occurrence
import SchemaCodegen.Text.Printable
import SchemaCodegen.Text.Quoted
import SchemaCodegen.Text.Shown
import SchemaCodegen.Text.Symbol
import SchemaCodegen.Text.Utf8
import SchemaCodegen.TextFile
import SchemaCodegen.Proofs.Artifact.Naming
import SchemaCodegen.Proofs.Artifact.Containment
import SchemaCodegen.Proofs.Artifact.Placement
import SchemaCodegen.Proofs.Command.Deposit
import SchemaCodegen.Proofs.Config.Typed
import SchemaCodegen.Proofs.FileTree.Directories
import SchemaCodegen.Proofs.FileTree.Entries
import SchemaCodegen.Proofs.FileTree.Following
import SchemaCodegen.Proofs.FileTree.Growth
import SchemaCodegen.Proofs.FileTree.Overwriting
import SchemaCodegen.Proofs.FileTree.Temporary
import SchemaCodegen.Proofs.Generation.Composition
import SchemaCodegen.Proofs.Generation.Course
import SchemaCodegen.Proofs.Generation.Directory
import SchemaCodegen.Proofs.Generation.History
import SchemaCodegen.Proofs.Generation.Plan
import SchemaCodegen.Proofs.Generation.Refused
import SchemaCodegen.Proofs.Generation.Rerun
import SchemaCodegen.Proofs.Generation.Round
import SchemaCodegen.Proofs.Log.Ancestry
import SchemaCodegen.Proofs.Log.Recording
import SchemaCodegen.Proofs.Path.Spelling
import SchemaCodegen.Proofs.Path.Reading
import SchemaCodegen.Proofs.Path.Descent
import SchemaCodegen.Proofs.Rename.Clash
import SchemaCodegen.Proofs.Rename.WholeIdentifier
import SchemaCodegen.Proofs.Outcome.Bookkeeping
import SchemaCodegen.Proofs.Schema.Comment
import SchemaCodegen.Proofs.Schema.Directive
import SchemaCodegen.Proofs.Schema.LineByLine
import SchemaCodegen.Proofs.Schema.Reading
import SchemaCodegen.Proofs.Schema.Search
import SchemaCodegen.Proofs.Schema.TypeName
import SchemaCodegen.Proofs.Text.Handover
import SchemaCodegen.Proofs.Text.Line
import SchemaCodegen.Proofs.Text.Token
import SchemaCodegen.Proofs.TextFile.AllOrNothing
import SchemaCodegen.Proofs.TextFile.Replacement
import SchemaCodegen.Proofs.TextFile.Room
import SchemaCodegen.Proofs.Text.RoundTrip
import SchemaCodegen.Proofs.Rename.Insertion
import SchemaCodegen.Proofs.Text.LineEnding
import SchemaCodegen.Proofs.FileTree.Beside
import SchemaCodegen.Proofs.Text.Validity
import SchemaCodegen.Proofs.TextFile.KeptBytes
import SchemaCodegen.Proofs.Command.Splitting
import SchemaCodegen.Proofs.Generation.Returning
import SchemaCodegen.Proofs.TextFile.Interruption
import SchemaCodegen.Proofs.Text.Cutting
import SchemaCodegen.Proofs.Rename.Anywhere
import SchemaCodegen.Proofs.Rename.Order
import SchemaCodegen.Proofs.Rename.Agreement
import SchemaCodegen.Proofs.Rename.Repetition
import SchemaCodegen.Proofs.Config.Dictionary
import SchemaCodegen.Proofs.Config.Members
import SchemaCodegen.Proofs.Config.Reading
import SchemaCodegen.Proofs.Json.Reordering
import SchemaCodegen.Proofs.Generation.Settling
import SchemaCodegen.Proofs.CommandLine.Echo
import SchemaCodegen.Proofs.CommandLine.Conclusion
import SchemaCodegen.Proofs.CommandLine.Layering
import SchemaCodegen.Proofs.CommandLine.Report
import SchemaCodegen.Proofs.Config.Reordering
import SchemaCodegen.Proofs.Config.Loading
