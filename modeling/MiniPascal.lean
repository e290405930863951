import MiniPascal.Binary64.Basic
import MiniPascal.Binary64.Shortest
import MiniPascal.CommandLine.Arguments
import MiniPascal.CommandLine.File
import MiniPascal.CommandLine.Response
import MiniPascal.Datum.Basic
import MiniPascal.Datum.Json
import MiniPascal.Datum.Number
import MiniPascal.Fault
import MiniPascal.Grammar.Cursor
import MiniPascal.Grammar.Expression
import MiniPascal.Grammar.Program
import MiniPascal.Grammar.Statement
import MiniPascal.Log
import MiniPascal.Main
import MiniPascal.Node.Basic
import MiniPascal.Node.Document
import MiniPascal.Node.Dump
import MiniPascal.Report
import MiniPascal.Run.Machine
import MiniPascal.Run.Program
import MiniPascal.Run.Visit
import MiniPascal.SymbolTable
import MiniPascal.Text.Basic
import MiniPascal.Text.Blank
import MiniPascal.Text.Capitals
import MiniPascal.Text.Digit
import MiniPascal.Text.Lowercase
import MiniPascal.Text.Numeral
import MiniPascal.Text.Printable
import MiniPascal.Text.Quoted
import MiniPascal.Text.Ranges
import MiniPascal.Token.Basic
import MiniPascal.Token.Feed
import MiniPascal.Token.Piece
import MiniPascal.Value.Basic
import MiniPascal.Value.Format
import MiniPascal.Value.Operator
import MiniPascal.Yield
import MiniPascal.Proofs.Grammar.Progress
import MiniPascal.Proofs.Grammar.Readers
import MiniPascal.Proofs.Grammar.Totality
import MiniPascal.Proofs.Node.Mention
import MiniPascal.Proofs.Grammar.Phrase
import MiniPascal.Proofs.Grammar.Quiet
import MiniPascal.Proofs.Grammar.Soundness.Expression
import MiniPascal.Proofs.Grammar.Soundness.Statement
import MiniPascal.Proofs.Grammar.Ambiguity
import MiniPascal.Proofs.Grammar.Completeness.Expression
import MiniPascal.Proofs.Grammar.Completeness.Statement
import MiniPascal.Proofs.Grammar.Acceptance
import MiniPascal.Proofs.Node.Shape
import MiniPascal.Proofs.Grammar.Image
import MiniPascal.Proofs.Value.Fault
import MiniPascal.Proofs.Run.Rules
import MiniPascal.Proofs.Grammar.Source
import MiniPascal.Proofs.Run.Fuel
import MiniPascal.Proofs.Run.Safety
import MiniPascal.Proofs.SymbolTable
import MiniPascal.Proofs.Token.Lexeme
import MiniPascal.Proofs.Token.Stream
import MiniPascal.Proofs.Node.Occurrence
import MiniPascal.Proofs.Node.Built
import MiniPascal.Proofs.Grammar.Building
import MiniPascal.Proofs.Grammar.Builders
import MiniPascal.Proofs.Grammar.Declaration
import MiniPascal.Proofs.Node.Reload
import MiniPascal.Proofs.Run.Reload
import MiniPascal.Proofs.Alike
import MiniPascal.Proofs.Grammar.Lockstep
import MiniPascal.Proofs.Run.Lockstep
import MiniPascal.Proofs.Run.Trace
import MiniPascal.Proofs.Value.Alike
import MiniPascal.Proofs.Grammar.Ending
import MiniPascal.Proofs.Token.Layout
import MiniPascal.Proofs.Run.Layout
import MiniPascal.Proofs.Token.Piece
import MiniPascal.Proofs.Text.LetterCase
import MiniPascal.Proofs.Token.LetterCase
import MiniPascal.Proofs.Run.LetterCase
import MiniPascal.Proofs.Grammar.Invariant
import MiniPascal.Proofs.Node.Sketch
import MiniPascal.Proofs.Grammar.Sketching
import MiniPascal.Proofs.Grammar.Reporting
import MiniPascal.Proofs.Token.Spelling
import MiniPascal.Proofs.Text.Numeral
import MiniPascal.Proofs.Node.Dump
import MiniPascal.Proofs.Grammar.Printing
import MiniPascal.Proofs.Node.Binding
import MiniPascal.Proofs.Grammar.Echo
import MiniPascal.Proofs.Grammar.Steering
import MiniPascal.Proofs.Node.Effect
import MiniPascal.Proofs.Run.Action
import MiniPascal.Proofs.Run.Discipline
import MiniPascal.Proofs.Run.Frame
import MiniPascal.Proofs.Run.Agreement
import MiniPascal.Proofs.CommandLine.Gate
import MiniPascal.Proofs.Run.Rounds
import MiniPascal.Proofs.Run.Loops
import MiniPascal.Proofs.Run.Evaluation
import MiniPascal.Proofs.Run.Choice
import MiniPascal.Proofs.Run.TripCount
import MiniPascal.Proofs.Grammar.Place
import MiniPascal.Proofs.Grammar.Sign
import MiniPascal.Proofs.Grammar.Recovery
import MiniPascal.Proofs.Node.Loading
import MiniPascal.Proofs.Node.Resaving
import MiniPascal.Proofs.Token.Pattern
import MiniPascal.Proofs.Run.Literal
import MiniPascal.Proofs.Token.Number
import MiniPascal.Proofs.Token.Table
import MiniPascal.Proofs.Value.Quotient
import MiniPascal.Proofs.Run.Integers
import MiniPascal.Proofs.Binary64.Integer
import MiniPascal.Proofs.Value.Format
import MiniPascal.Proofs.Value.Order
import MiniPascal.Proofs.Token.Numeral
import MiniPascal.Proofs.Run.Numeral
import MiniPascal.Proofs.SymbolTable.History
import MiniPascal.Proofs.SymbolTable.Sharing
