import LambdaSyntax.Command.Options
import LambdaSyntax.Command.Run
import LambdaSyntax.Diagnostic
import LambdaSyntax.Files
import LambdaSyntax.Grammar
import LambdaSyntax.Hint.Distance
import LambdaSyntax.Hint.Missing
import LambdaSyntax.Hint.Spelling
import LambdaSyntax.LexicalError
import LambdaSyntax.Literal
import LambdaSyntax.Location
import LambdaSyntax.Main
import LambdaSyntax.Parse.Counted
import LambdaSyntax.Parse.Descent
import LambdaSyntax.Parse.Production
import LambdaSyntax.Parse.Reading
import LambdaSyntax.Parse.Session
import LambdaSyntax.Parse.Stream
import LambdaSyntax.Proofs.Alternatives
import LambdaSyntax.Proofs.Arguments
import LambdaSyntax.Proofs.Arrivals
import LambdaSyntax.Proofs.Calls
import LambdaSyntax.Proofs.Correctness
import LambdaSyntax.Proofs.Coverage
import LambdaSyntax.Proofs.Cuts
import LambdaSyntax.Proofs.Descent
import LambdaSyntax.Proofs.Detail
import LambdaSyntax.Proofs.Digits
import LambdaSyntax.Proofs.EditScripts
import LambdaSyntax.Proofs.Endings
import LambdaSyntax.Proofs.Expected
import LambdaSyntax.Proofs.Failures
import LambdaSyntax.Proofs.Files
import LambdaSyntax.Proofs.Fold
import LambdaSyntax.Proofs.Grows
import LambdaSyntax.Proofs.Keys
import LambdaSyntax.Proofs.Layout
import LambdaSyntax.Proofs.Leads
import LambdaSyntax.Proofs.Levels
import LambdaSyntax.Proofs.Limit
import LambdaSyntax.Proofs.LineEnds
import LambdaSyntax.Proofs.Literal
import LambdaSyntax.Proofs.Longest
import LambdaSyntax.Proofs.Lookahead
import LambdaSyntax.Proofs.Mirrors
import LambdaSyntax.Proofs.Misspellings
import LambdaSyntax.Proofs.Nearest
import LambdaSyntax.Proofs.Nesting
import LambdaSyntax.Proofs.Numerals
import LambdaSyntax.Proofs.Parentheses
import LambdaSyntax.Proofs.Paths
import LambdaSyntax.Proofs.Places
import LambdaSyntax.Proofs.Postorder
import LambdaSyntax.Proofs.Printed
import LambdaSyntax.Proofs.Production
import LambdaSyntax.Proofs.Progress
import LambdaSyntax.Proofs.Quoted
import LambdaSyntax.Proofs.Reach
import LambdaSyntax.Proofs.Reads
import LambdaSyntax.Proofs.Records
import LambdaSyntax.Proofs.Recovery
import LambdaSyntax.Proofs.Relocation
import LambdaSyntax.Proofs.Replay
import LambdaSyntax.Proofs.Report
import LambdaSyntax.Proofs.RoundTrip
import LambdaSyntax.Proofs.Same
import LambdaSyntax.Proofs.Separators
import LambdaSyntax.Proofs.Sites
import LambdaSyntax.Proofs.Sources
import LambdaSyntax.Proofs.Spans
import LambdaSyntax.Proofs.Stops
import LambdaSyntax.Proofs.Suggestions
import LambdaSyntax.Proofs.Truthful
import LambdaSyntax.Proofs.TypeText
import LambdaSyntax.Proofs.Utf8
import LambdaSyntax.Proofs.Wishes
import LambdaSyntax.Proofs.Words
import LambdaSyntax.Proofs.Written
import LambdaSyntax.Record
import LambdaSyntax.Scalar
import LambdaSyntax.SyntaxError
import LambdaSyntax.Text.Blank
import LambdaSyntax.Text.Integer
import LambdaSyntax.Text.Lines
import LambdaSyntax.Text.LowerCase
import LambdaSyntax.Text.Printable
import LambdaSyntax.Text.Quoted
import LambdaSyntax.Text.Utf8
import LambdaSyntax.Token.Basic
import LambdaSyntax.Token.Class
import LambdaSyntax.Token.Kind
import LambdaSyntax.Token.Lexeme
import LambdaSyntax.Token.Scan
import LambdaSyntax.Token.Scanner
import LambdaSyntax.Tree.Basic
import LambdaSyntax.Tree.Fold
import LambdaSyntax.Tree.Printed
import LambdaSyntax.Tree.Record
import LambdaSyntax.Tree.Same
import LambdaSyntax.Tree.Signs
import LambdaSyntax.Tree.Source
import LambdaSyntax.Tree.WellFormed
