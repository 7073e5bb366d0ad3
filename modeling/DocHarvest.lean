import DocHarvest.Config
import DocHarvest.Docstring.Margin
import DocHarvest.Docstring.Model
import DocHarvest.Docstring.Parse
import DocHarvest.Docstring.Section
import DocHarvest.Extract.Definition
import DocHarvest.Extract.Literal
import DocHarvest.Extract.Render
import DocHarvest.Extract.Source
import DocHarvest.Files.Discover
import DocHarvest.Files.Tree
import DocHarvest.Grammar.Automaton
import DocHarvest.Grammar.ItemSet
import DocHarvest.Grammar.Reader
import DocHarvest.Grammar.Rule
import DocHarvest.Grammar.Table
import DocHarvest.Grammar.Tree
import DocHarvest.Harvest
import DocHarvest.Json.Reader
import DocHarvest.Json.Value
import DocHarvest.Json.Writer
import DocHarvest.Path.Basic
import DocHarvest.Program.Kind
import DocHarvest.Program.Layout
import DocHarvest.Program.Lexicon
import DocHarvest.Program.Parser
import DocHarvest.Program.Reading
import DocHarvest.Program.Rules
import DocHarvest.Proofs.Batch.Independence
import DocHarvest.Proofs.Batch.InputOrder
import DocHarvest.Proofs.Batch.Isolation
import DocHarvest.Proofs.Docstring.Accumulation
import DocHarvest.Proofs.Docstring.BlankLines
import DocHarvest.Proofs.Docstring.CodeRuns
import DocHarvest.Proofs.Docstring.Composition
import DocHarvest.Proofs.Docstring.Content
import DocHarvest.Proofs.Docstring.Dedenting
import DocHarvest.Proofs.Docstring.FieldContent
import DocHarvest.Proofs.Docstring.FieldOrder
import DocHarvest.Proofs.Docstring.FixedPoints
import DocHarvest.Proofs.Docstring.GoogleContent
import DocHarvest.Proofs.Docstring.Layout
import DocHarvest.Proofs.Docstring.Nesting
import DocHarvest.Proofs.Docstring.NormalForm
import DocHarvest.Proofs.Docstring.NumpyContent
import DocHarvest.Proofs.Docstring.Partition
import DocHarvest.Proofs.Docstring.SharedMargin
import DocHarvest.Proofs.Extract.CommentedTrees
import DocHarvest.Proofs.Extract.CommentedTypes
import DocHarvest.Proofs.Extract.Comments
import DocHarvest.Proofs.Extract.Decorators
import DocHarvest.Proofs.Extract.Defaults
import DocHarvest.Proofs.Extract.Literals
import DocHarvest.Proofs.Extract.Renderings
import DocHarvest.Proofs.Extract.Signatures
import DocHarvest.Proofs.Extract.Statements
import DocHarvest.Proofs.Files.Discovery
import DocHarvest.Proofs.Inheritance.Ancestry
import DocHarvest.Proofs.Inheritance.CallStack
import DocHarvest.Proofs.Inheritance.ClosestDefinition
import DocHarvest.Proofs.Inheritance.Completion
import DocHarvest.Proofs.Inheritance.FirstOccurrence
import DocHarvest.Proofs.Inheritance.Gathering
import DocHarvest.Proofs.Inheritance.Groups
import DocHarvest.Proofs.Inheritance.History
import DocHarvest.Proofs.Inheritance.Lookup
import DocHarvest.Proofs.Inheritance.Overrides
import DocHarvest.Proofs.Inheritance.Preorder
import DocHarvest.Proofs.Inheritance.RecordShape
import DocHarvest.Proofs.Inheritance.RegistrationOrder
import DocHarvest.Proofs.Inheritance.SearchOrder
import DocHarvest.Proofs.Inheritance.Segments
import DocHarvest.Proofs.Json.Values
import DocHarvest.Proofs.Path.Spelling
import DocHarvest.Proofs.Program.Trees
import DocHarvest.Proofs.Record.Additions
import DocHarvest.Proofs.Record.Fields
import DocHarvest.Proofs.Record.RoundTrip
import DocHarvest.Proofs.Text.LineBreaks
import DocHarvest.Proofs.Text.LineEnds
import DocHarvest.Proofs.Text.Trimming
import DocHarvest.Record.Batch
import DocHarvest.Record.Class
import DocHarvest.Record.Codec
import DocHarvest.Record.Function
import DocHarvest.Registry
import DocHarvest.Text.Identifier
import DocHarvest.Text.Lines
