import DocBlocks.Arguments.Basic
import DocBlocks.Arguments.Binding
import DocBlocks.Arguments.Statement
import DocBlocks.Block.Basic
import DocBlocks.Block.Scanner
import DocBlocks.Block.Tag
import DocBlocks.Builtin.Contents
import DocBlocks.Builtin.GettingStarted
import DocBlocks.Builtin.PackageConfig
import DocBlocks.Builtin.Registry
import DocBlocks.Command.Json
import DocBlocks.Command.Run
import DocBlocks.Command.Usage
import DocBlocks.Comment
import DocBlocks.Decimal.Layout
import DocBlocks.Decimal.Reading
import DocBlocks.Decimal.Shortest
import DocBlocks.Diff.Lines
import DocBlocks.Diff.Script
import DocBlocks.Diff.Shortest
import DocBlocks.Document.Basic
import DocBlocks.Document.Bound
import DocBlocks.Document.Fragment
import DocBlocks.Document.Leading
import DocBlocks.Document.Pass
import DocBlocks.Document.Session
import DocBlocks.Error
import DocBlocks.Expr.Basic
import DocBlocks.Expr.Error
import DocBlocks.Expr.Eval
import DocBlocks.Expr.Lexeme
import DocBlocks.Expr.Operation
import DocBlocks.Expr.Parse
import DocBlocks.Expr.Template
import DocBlocks.Expr.Token
import DocBlocks.Files.Basic
import DocBlocks.Files.Lookup
import DocBlocks.Files.Update
import DocBlocks.Generator.Binder
import DocBlocks.Generator.Inquiry
import DocBlocks.Generator.Plugin
import DocBlocks.Generator.Registry
import DocBlocks.Ignore.Glob
import DocBlocks.Ignore.Rules
import DocBlocks.Main
import DocBlocks.Markdown.Autolink
import DocBlocks.Markdown.Container
import DocBlocks.Markdown.Emphasis
import DocBlocks.Markdown.Entity.Names
import DocBlocks.Markdown.Entity.Reference
import DocBlocks.Markdown.Html.Block
import DocBlocks.Markdown.Html.Tag
import DocBlocks.Markdown.Inline
import DocBlocks.Markdown.Line
import DocBlocks.Markdown.LineStart
import DocBlocks.Markdown.Neighbour
import DocBlocks.Markdown.Outline
import DocBlocks.Markdown.Reference
import DocBlocks.Markdown.Summary
import DocBlocks.Markdown.Table
import DocBlocks.Notice
import DocBlocks.Path
import DocBlocks.Position
import DocBlocks.Proofs.Arguments.Agreement
import DocBlocks.Proofs.Arguments.Failing
import DocBlocks.Proofs.Arguments.Insertion
import DocBlocks.Proofs.Arguments.Layout
import DocBlocks.Proofs.Arguments.Lexemes
import DocBlocks.Proofs.Arguments.Sourced
import DocBlocks.Proofs.Arguments.Spelling
import DocBlocks.Proofs.Arguments.Splitting
import DocBlocks.Proofs.Arguments.Written
import DocBlocks.Proofs.Block.Cut
import DocBlocks.Proofs.Block.Extent
import DocBlocks.Proofs.Block.Grammar
import DocBlocks.Proofs.Block.Locality
import DocBlocks.Proofs.Block.Occurrence
import DocBlocks.Proofs.Block.Restart
import DocBlocks.Proofs.Block.Rewriting
import DocBlocks.Proofs.Block.Runs
import DocBlocks.Proofs.Block.Search
import DocBlocks.Proofs.Block.Tags
import DocBlocks.Proofs.Block.Trace
import DocBlocks.Proofs.Builtin.Contents
import DocBlocks.Proofs.Builtin.Rendering
import DocBlocks.Proofs.Document.Confined
import DocBlocks.Proofs.Document.Leading
import DocBlocks.Proofs.Document.Passes
import DocBlocks.Proofs.Document.Readback
import DocBlocks.Proofs.Document.Regenerated
import DocBlocks.Proofs.Document.Steady
import DocBlocks.Proofs.Document.Tiled
import DocBlocks.Proofs.Document.Written
import DocBlocks.Proofs.Double.Nearest
import DocBlocks.Proofs.Double.Standing
import DocBlocks.Proofs.Expr.Chains
import DocBlocks.Proofs.Expr.Comparison
import DocBlocks.Proofs.Expr.Completeness
import DocBlocks.Proofs.Expr.Division
import DocBlocks.Proofs.Expr.Grammar
import DocBlocks.Proofs.Expr.Induction
import DocBlocks.Proofs.Expr.Interpolation
import DocBlocks.Proofs.Expr.Keyed
import DocBlocks.Proofs.Expr.Names
import DocBlocks.Proofs.Expr.Nesting
import DocBlocks.Proofs.Expr.Plain
import DocBlocks.Proofs.Expr.Reading
import DocBlocks.Proofs.Expr.Repetition
import DocBlocks.Proofs.Expr.Soundness
import DocBlocks.Proofs.Expr.Templates
import DocBlocks.Proofs.Files.Canonical
import DocBlocks.Proofs.Files.Descent
import DocBlocks.Proofs.Files.Order
import DocBlocks.Proofs.Files.Shape
import DocBlocks.Proofs.Files.Taken
import DocBlocks.Proofs.Files.Writing
import DocBlocks.Proofs.Generator.Accounting
import DocBlocks.Proofs.Generator.Binding
import DocBlocks.Proofs.Generator.Registrations
import DocBlocks.Proofs.Generator.Rereading
import DocBlocks.Proofs.Guarded.Access
import DocBlocks.Proofs.Guarded.Evaluation
import DocBlocks.Proofs.Guarded.Operations
import DocBlocks.Proofs.Guarded.Scanning
import DocBlocks.Proofs.Guarded.Statements
import DocBlocks.Proofs.Guarded.Templates
import DocBlocks.Proofs.Literal.Digits
import DocBlocks.Proofs.Literal.Evaluation
import DocBlocks.Proofs.Literal.Floats
import DocBlocks.Proofs.Literal.Lexing
import DocBlocks.Proofs.Literal.Quoting
import DocBlocks.Proofs.Literal.Reading
import DocBlocks.Proofs.Literal.Tokens
import DocBlocks.Proofs.Markdown.Cells
import DocBlocks.Proofs.Markdown.Table
import DocBlocks.Proofs.Outcome
import DocBlocks.Proofs.Path
import DocBlocks.Proofs.Path.Location
import DocBlocks.Proofs.Position
import DocBlocks.Proofs.Sorted
import DocBlocks.Proofs.Text.Indentation
import DocBlocks.Proofs.Text.Lines
import DocBlocks.Proofs.Text.Pieces
import DocBlocks.Proofs.Text.Slices
import DocBlocks.Proofs.Value.Entries
import DocBlocks.Proofs.Value.Parts
import DocBlocks.Proofs.Workspace.Cycles
import DocBlocks.Proofs.Workspace.Independence
import DocBlocks.Proofs.Workspace.Listing
import DocBlocks.Proofs.Workspace.Members
import DocBlocks.Proofs.Workspace.Processing
import DocBlocks.Proofs.Workspace.Rescan
import DocBlocks.Proofs.Workspace.Scope
import DocBlocks.Proofs.Workspace.Stability
import DocBlocks.Proofs.Workspace.Walked
import DocBlocks.Sorted
import DocBlocks.Text.Blank
import DocBlocks.Text.Escaped
import DocBlocks.Text.Offset
import DocBlocks.Text.Quoted
import DocBlocks.Text.Unprintable
import DocBlocks.Toml.Basic
import DocBlocks.Toml.Reader
import DocBlocks.Toml.Scalar
import DocBlocks.Toml.Text
import DocBlocks.Value.Approx
import DocBlocks.Value.Basic
import DocBlocks.Value.Conversion
import DocBlocks.Value.Literal
import DocBlocks.Workspace.Basic
import DocBlocks.Workspace.Config
import DocBlocks.Workspace.Process
import DocBlocks.Workspace.Scan
import DocBlocks.Workspace.Walk
