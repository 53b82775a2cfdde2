import ModuleGraph.Alias.Basic
import ModuleGraph.Alias.Document
import ModuleGraph.Alias.Load
import ModuleGraph.Collection.Modules
import ModuleGraph.Collection.Walk
import ModuleGraph.CommandLine
import ModuleGraph.Comment
import ModuleGraph.Dependencies
import ModuleGraph.Extraction
import ModuleGraph.Files.Canonical
import ModuleGraph.Files.Disk
import ModuleGraph.Files.Lookup
import ModuleGraph.Graph
import ModuleGraph.Ignore.Glob
import ModuleGraph.Ignore.Layer
import ModuleGraph.Ignore.Rule
import ModuleGraph.Json.Number
import ModuleGraph.Json.Reader
import ModuleGraph.Json.Value
import ModuleGraph.Json.Writer
import ModuleGraph.Main
import ModuleGraph.Outcome
import ModuleGraph.Path.Ancestors
import ModuleGraph.Path.Basic
import ModuleGraph.Path.Extend
import ModuleGraph.Path.Relative
import ModuleGraph.Project
import ModuleGraph.Report
import ModuleGraph.Resolution.Default
import ModuleGraph.Resolution.Mapped
import ModuleGraph.Resolution.Package
import ModuleGraph.Resolution.Request
import ModuleGraph.Scan
import ModuleGraph.Source.Cursor
import ModuleGraph.Source.Dialect
import ModuleGraph.Source.Grammar.Bindings
import ModuleGraph.Source.Grammar.Classes
import ModuleGraph.Source.Grammar.Declarations
import ModuleGraph.Source.Grammar.Expressions
import ModuleGraph.Source.Grammar.Functions
import ModuleGraph.Source.Grammar.Markup
import ModuleGraph.Source.Grammar.Modules
import ModuleGraph.Source.Grammar.Names
import ModuleGraph.Source.Grammar.Program
import ModuleGraph.Source.Grammar.Rules
import ModuleGraph.Source.Grammar.Statements
import ModuleGraph.Source.Grammar.Targets
import ModuleGraph.Source.Grammar.Types
import ModuleGraph.Source.Keyword
import ModuleGraph.Source.Lexer
import ModuleGraph.Source.Onward
import ModuleGraph.Source.Token
import ModuleGraph.Source.Tree
import ModuleGraph.Specifier
import ModuleGraph.Text.Blank
import ModuleGraph.Text.Letters
import ModuleGraph.Text.Printable
import ModuleGraph.Text.Word
import ModuleGraph.Warning
import ModuleGraph.Proofs.Path.Absolute
import ModuleGraph.Proofs.Path.Relative
import ModuleGraph.Proofs.Resolution.Absolute
import ModuleGraph.Proofs.Alias.Targets
import ModuleGraph.Proofs.Defaults
import ModuleGraph.Proofs.Dependencies
import ModuleGraph.Proofs.Comment.Gap
import ModuleGraph.Proofs.Comment.Composition
import ModuleGraph.Proofs.Comment.Lexemes
import ModuleGraph.Proofs.Comment.Copied
import ModuleGraph.Proofs.Scan.Declaration
import ModuleGraph.Proofs.Scan.Layout
import ModuleGraph.Proofs.Scan.Writing
import ModuleGraph.Proofs.Scan.Shapes
import ModuleGraph.Proofs.Scan.ModuleText
import ModuleGraph.Proofs.Scan.Literals
import ModuleGraph.Proofs.Scan.Regions
import ModuleGraph.Proofs.Json.Reading
import ModuleGraph.Proofs.Json.Printing
import ModuleGraph.Proofs.Report
import ModuleGraph.Proofs.Report.Tree
import ModuleGraph.Proofs.Report.Colours
import ModuleGraph.Proofs.Outcome
import ModuleGraph.Proofs.Alias.Commas
import ModuleGraph.Proofs.Alias.LaxText
import ModuleGraph.Proofs.Alias.Precedence
import ModuleGraph.Proofs.Path.Order
import ModuleGraph.Proofs.Files.Reaching
import ModuleGraph.Proofs.Files.Canonical
import ModuleGraph.Proofs.Files.Tree
import ModuleGraph.Proofs.Files.Linkless
import ModuleGraph.Proofs.Files.Outline
import ModuleGraph.Proofs.Resolution.Existing
import ModuleGraph.Proofs.Resolution.Outline
import ModuleGraph.Proofs.Ignore.Layers
import ModuleGraph.Proofs.Ignore.Outline
import ModuleGraph.Proofs.Collection.Listing
import ModuleGraph.Proofs.Collection.Outline
import ModuleGraph.Proofs.Project.Modules
import ModuleGraph.Proofs.Project.Edges
import ModuleGraph.Proofs.Project.Closure
import ModuleGraph.Proofs.Project.Isolation
import ModuleGraph.Proofs.Source.Gaps
import ModuleGraph.Proofs.Source.Tokens
import ModuleGraph.Proofs.Source.Readers
import ModuleGraph.Proofs.Source.Leading
import ModuleGraph.Proofs.Source.Declarations
import ModuleGraph.Proofs.Source.Program
import ModuleGraph.Proofs.Source.Rows
import ModuleGraph.Proofs.Source.Expressions
import ModuleGraph.Proofs.Source.Statements
import ModuleGraph.Proofs.Extraction
import ModuleGraph.Proofs.Mentions
import ModuleGraph.Proofs.Occurrences
import ModuleGraph.Proofs.Exported
import ModuleGraph.Proofs.Scan.ReExports
import ModuleGraph.Proofs.Scan.TypeWord
import ModuleGraph.Proofs.Path.Components
import ModuleGraph.Proofs.Json.Tree
import ModuleGraph.Proofs.Project.Entries
import ModuleGraph.Proofs.Calls
import ModuleGraph.Proofs.Path.Clean
import ModuleGraph.Proofs.Alias.Origin
import ModuleGraph.Proofs.Alias.Wildcards
import ModuleGraph.Proofs.Alias.Matching
import ModuleGraph.Proofs.Path.Normal
import ModuleGraph.Proofs.Path.Reduced
import ModuleGraph.Proofs.Path.Chain
import ModuleGraph.Proofs.Alias.Nearest
import ModuleGraph.Proofs.Alias.WellFormed
import ModuleGraph.Proofs.Path.Suffix
import ModuleGraph.Proofs.Collection.Collected
