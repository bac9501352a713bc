import ScriptFold.Bindings
import ScriptFold.CommandLine.Arguments
import ScriptFold.CommandLine.Report
import ScriptFold.CommandLine.Run
import ScriptFold.Decimal.Shortest
import ScriptFold.Definition.Basic
import ScriptFold.Definition.Codec
import ScriptFold.Files.Path
import ScriptFold.Files.Tree
import ScriptFold.Files.Writing
import ScriptFold.Json.Basic
import ScriptFold.Json.Decoding
import ScriptFold.Json.Draft
import ScriptFold.Json.Mismatch
import ScriptFold.Json.Number
import ScriptFold.Json.Printer
import ScriptFold.Json.Reader
import ScriptFold.Library.Config
import ScriptFold.Library.Folder
import ScriptFold.Library.Loading
import ScriptFold.Library.Rewriting
import ScriptFold.Library.Source
import ScriptFold.Log.Matching
import ScriptFold.Log.Record
import ScriptFold.Log.Rewriting
import ScriptFold.Main
import ScriptFold.Match
import ScriptFold.NameMap
import ScriptFold.Pattern.Capture
import ScriptFold.Pattern.Layout
import ScriptFold.Pattern.LinePattern
import ScriptFold.Proofs.Accounting
import ScriptFold.Proofs.Ambient
import ScriptFold.Proofs.Beginning
import ScriptFold.Proofs.Binding
import ScriptFold.Proofs.Canonical
import ScriptFold.Proofs.Collapsing
import ScriptFold.Proofs.Compilable
import ScriptFold.Proofs.Compiled
import ScriptFold.Proofs.Confining
import ScriptFold.Proofs.Counting
import ScriptFold.Proofs.Coverage
import ScriptFold.Proofs.Defaulting
import ScriptFold.Proofs.Directories
import ScriptFold.Proofs.Dividing
import ScriptFold.Proofs.Documents
import ScriptFold.Proofs.Effects
import ScriptFold.Proofs.Enclosing
import ScriptFold.Proofs.EntryValues
import ScriptFold.Proofs.ExpandErrors
import ScriptFold.Proofs.Expanding
import ScriptFold.Proofs.Extending
import ScriptFold.Proofs.Failing
import ScriptFold.Proofs.Faults
import ScriptFold.Proofs.FieldSets
import ScriptFold.Proofs.Fields
import ScriptFold.Proofs.Grouping
import ScriptFold.Proofs.Inlining
import ScriptFold.Proofs.ItemValues
import ScriptFold.Proofs.Joining
import ScriptFold.Proofs.JsonText
import ScriptFold.Proofs.KeptValues
import ScriptFold.Proofs.Listing
import ScriptFold.Proofs.Lists
import ScriptFold.Proofs.LoadedLibrary
import ScriptFold.Proofs.Lookup
import ScriptFold.Proofs.Mirroring
import ScriptFold.Proofs.Nesting
import ScriptFold.Proofs.Occurrence
import ScriptFold.Proofs.OtherFiles
import ScriptFold.Proofs.Outcome
import ScriptFold.Proofs.Pairing
import ScriptFold.Proofs.Placeholders
import ScriptFold.Proofs.Placing
import ScriptFold.Proofs.Precedence
import ScriptFold.Proofs.Recognizing
import ScriptFold.Proofs.RefusedLibrary
import ScriptFold.Proofs.Removing
import ScriptFold.Proofs.Resolving
import ScriptFold.Proofs.ResponseKeys
import ScriptFold.Proofs.Restoring
import ScriptFold.Proofs.Results
import ScriptFold.Proofs.RoundTrip
import ScriptFold.Proofs.SafeRuns
import ScriptFold.Proofs.Structure
import ScriptFold.Proofs.Tracing
import ScriptFold.Proofs.Unfolding
import ScriptFold.Proofs.Usage
import ScriptFold.Proofs.Weights
import ScriptFold.Proofs.WellFormed
import ScriptFold.Proofs.WrittenFiles
import ScriptFold.Script.Codec
import ScriptFold.Script.Document
import ScriptFold.Script.Item
import ScriptFold.Script.Snippet
import ScriptFold.Template.Basic
import ScriptFold.Template.Compiling
import ScriptFold.Template.Formatting
import ScriptFold.Template.Matching
import ScriptFold.Text.Characters
import ScriptFold.Text.Quoted
import ScriptFold.Text.Terminal
import ScriptFold.Text.Word
import ScriptFold.Toml.Reader
import ScriptFold.Toml.Scalar
import ScriptFold.Toml.Table
import ScriptFold.Toml.Text
import ScriptFold.Validation
