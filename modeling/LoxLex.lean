import LoxLex.Binary64
import LoxLex.Command
import LoxLex.CommandLine
import LoxLex.Decimal.Numeral
import LoxLex.Decimal.Shortest
import LoxLex.Decimal.Style
import LoxLex.Diagnostic
import LoxLex.Diagnostic.Coloring
import LoxLex.Diagnostic.ErrorLog
import LoxLex.Expr
import LoxLex.Failure
import LoxLex.Fault
import LoxLex.FileTree
import LoxLex.Main
import LoxLex.Options
import LoxLex.Piece
import LoxLex.Scan
import LoxLex.Scan.Error
import LoxLex.Scan.Extent
import LoxLex.Scan.Lead
import LoxLex.Session
import LoxLex.Sink
import LoxLex.Source
import LoxLex.Text.Quoted
import LoxLex.Text.Unprintable
import LoxLex.Token
import LoxLex.Token.Keyword
import LoxLex.Token.Kind
import LoxLex.Token.Operator
import LoxLex.Proofs.Source.Bytes
import LoxLex.Proofs.Source.Reads
import LoxLex.Proofs.Decimal.Numeral
import LoxLex.Proofs.Token.Operator
import LoxLex.Proofs.Piece.Tiling
import LoxLex.Proofs.Scan.Lead
import LoxLex.Proofs.Scan.Step
import LoxLex.Proofs.Scan.Pieces
import LoxLex.Proofs.Scan.Coverage
import LoxLex.Proofs.Scan.Safety
import LoxLex.Proofs.Scan.Spelling
import LoxLex.Proofs.Piece.Join
import LoxLex.Proofs.Scan.Found
import LoxLex.Proofs.Scan.Newline
import LoxLex.Proofs.Scan.Trace
import LoxLex.Proofs.Scan.Line
import LoxLex.Proofs.Scan.WellFormed
import LoxLex.Proofs.Text.Lines
import LoxLex.Proofs.Scan.Lines
import LoxLex.Proofs.Session.Output
import LoxLex.Proofs.Scan.Lookahead
import LoxLex.Proofs.Text.Digits
import LoxLex.Proofs.Text.Quoted
import LoxLex.Proofs.Decimal.Style
import LoxLex.Proofs.Token.Dump
import LoxLex.Proofs.Command.File
import LoxLex.Proofs.Command.Dump
import LoxLex.Proofs.Command.Transcript
import LoxLex.Proofs.Decimal.Positional
import LoxLex.Proofs.Expr.Print
import LoxLex.Proofs.Session.History
import LoxLex.Proofs.CommandLine.Options
import LoxLex.Proofs.CommandLine.Split
import LoxLex.Proofs.CommandLine.Outcome
import LoxLex.Proofs.CommandLine.Prompt
import LoxLex.Proofs.Expr.Scan
import LoxLex.Proofs.Scan.Terminated
import LoxLex.Proofs.Command.Terminated
import LoxLex.Proofs.Scan.Recovery
import LoxLex.Proofs.Scan.Unterminated
import LoxLex.Proofs.Binary64.Units
import LoxLex.Proofs.Binary64.Nearest
import LoxLex.Proofs.Binary64.Value
import LoxLex.Proofs.Binary64.Rounding
import LoxLex.Proofs.Decimal.Value
import LoxLex.Proofs.Scan.Number
import LoxLex.Proofs.Decimal.Shortest
import LoxLex.Proofs.Scan.Readback
import LoxLex.Proofs.Diagnostic.History
import LoxLex.Proofs.Text.Plain
import LoxLex.Proofs.Session.Listing
import LoxLex.Proofs.Session.Report
import LoxLex.Proofs.Source.Padding
import LoxLex.Proofs.Source.Slice
import LoxLex.Proofs.Source.Characters
import LoxLex.Proofs.Source.Search
