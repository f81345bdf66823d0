import Stencil.Builtin
import Stencil.Catalog
import Stencil.CommandLine
import Stencil.CommandLine.Arguments
import Stencil.Config
import Stencil.Config.Codec
import Stencil.Config.Misfit
import Stencil.Config.Reader
import Stencil.Decimal.Rounded
import Stencil.Decimal.Shortest
import Stencil.Declaration
import Stencil.DemoCheck
import Stencil.Diagnostic
import Stencil.Error
import Stencil.Files.Glob
import Stencil.Files.Name
import Stencil.Files.Tree
import Stencil.Formatter
import Stencil.Formatter.Arithmetic
import Stencil.Formatter.ByteText
import Stencil.Formatter.Command
import Stencil.Formatter.Command.Amount
import Stencil.Formatter.Command.Blocks
import Stencil.Formatter.Command.Checksum
import Stencil.Formatter.Command.Compare
import Stencil.Formatter.Command.Count
import Stencil.Formatter.Command.Digest
import Stencil.Formatter.Command.Dump
import Stencil.Formatter.Command.Edit
import Stencil.Formatter.Command.Encode
import Stencil.Formatter.Command.Excerpt
import Stencil.Formatter.Command.Exchange
import Stencil.Formatter.Command.Facts
import Stencil.Formatter.Command.FileWork
import Stencil.Formatter.Command.Fill
import Stencil.Formatter.Command.Find
import Stencil.Formatter.Command.Join
import Stencil.Formatter.Command.Layout
import Stencil.Formatter.Command.Listing
import Stencil.Formatter.Command.Options
import Stencil.Formatter.Command.Order
import Stencil.Formatter.Command.Records
import Stencil.Formatter.Command.Search
import Stencil.Formatter.Command.Table
import Stencil.Formatter.Command.Test
import Stencil.Formatter.LineEditor
import Stencil.Formatter.LineEditor.Reader
import Stencil.Formatter.NamePattern
import Stencil.Formatter.Printf
import Stencil.Formatter.RecordProgram
import Stencil.Formatter.RecordProgram.Reader
import Stencil.Formatter.RecordProgram.Run
import Stencil.Formatter.RecordProgram.Sheet
import Stencil.Formatter.Regex
import Stencil.Formatter.Regex.Reader
import Stencil.Formatter.Script
import Stencil.Formatter.Script.Batches
import Stencil.Formatter.Script.Builtin
import Stencil.Formatter.Script.Expansion
import Stencil.Formatter.Script.Launch
import Stencil.Formatter.Script.Perform
import Stencil.Formatter.Script.Reader
import Stencil.Formatter.Script.Run
import Stencil.Formatter.Script.State
import Stencil.Json
import Stencil.Json.Scan
import Stencil.Library
import Stencil.Main
import Stencil.Program.Compile
import Stencil.Program.Op
import Stencil.Program.Path
import Stencil.Program.Stmt
import Stencil.Proofs.Library.Compilation
import Stencil.Proofs.Outcome
import Stencil.Proofs.Program.Execution
import Stencil.Proofs.Program.Preservation
import Stencil.Proofs.Program.Rejection
import Stencil.Proofs.Program.Resolution
import Stencil.Proofs.Program.Safety
import Stencil.Proofs.Program.Scope
import Stencil.Proofs.Program.Spelling
import Stencil.Proofs.Program.Typing
import Stencil.Proofs.Schema.Build
import Stencil.Proofs.Schema.Expansion
import Stencil.Proofs.Schema.Grammar
import Stencil.Proofs.Schema.Keyword
import Stencil.Proofs.Schema.WellFormed
import Stencil.Reference
import Stencil.Schema.Lexeme
import Stencil.Schema.Registry
import Stencil.Schema.Scalar
import Stencil.Schema.Ty
import Stencil.Schema.TypeExpr
import Stencil.Solidity
import Stencil.Template.Clause
import Stencil.Template.Fault
import Stencil.Template.Token
import Stencil.Template.Token.Lexer
import Stencil.Template.Tree
import Stencil.Template.Tree.Nesting
import Stencil.Text.Blank
import Stencil.Text.Compact
import Stencil.Text.Escape
import Stencil.Text.Lines
import Stencil.Text.Offset
import Stencil.Text.Quoted
import Stencil.Text.UpperCase
import Stencil.Text.Utf8
import Stencil.Text.Word
import Stencil.Proofs.Solidity.Indentation
import Stencil.Proofs.Library.Declarations
import Stencil.Proofs.Program.Rendering
import Stencil.Proofs.Template.Printer
import Stencil.Proofs.Template.RoundTrip
import Stencil.Proofs.Schema.Incremental
import Stencil.Proofs.Library.Rearrangement
import Stencil.Proofs.Config.RoundTrip
import Stencil.Proofs.Program.QuoteContext
import Stencil.Proofs.Text.Compaction
import Stencil.Proofs.Schema.Denotation
import Stencil.Proofs.Schema.Invariant
import Stencil.Proofs.Schema.Inlining
import Stencil.Proofs.Template.Positions
import Stencil.Proofs.Program.Location
import Stencil.Proofs.Schema.Diagnosis
import Stencil.Proofs.Program.Emission
import Stencil.Proofs.Template.Coverage
import Stencil.Proofs.Template.Settling
import Stencil.Proofs.Template.Unmarking
import Stencil.Proofs.Program.TrimMarkers
import Stencil.Proofs.Template.Comments
import Stencil.Proofs.Program.Simulation
import Stencil.Proofs.Program.CallForms
import Stencil.Proofs.Program.Growth
import Stencil.Proofs.Template.Descent
import Stencil.Proofs.Template.Alignment
import Stencil.Proofs.Template.Guards
import Stencil.Proofs.Text.QuoteParity
import Stencil.Proofs.Solidity.StringLiteral
import Stencil.Proofs.DemoCheck.Comparison
import Stencil.Proofs.Files.Naming
import Stencil.Proofs.Files.Writing
import Stencil.Proofs.CommandLine.Outputs
import Stencil.Proofs.Text.Location
import Stencil.Proofs.Program.Report
