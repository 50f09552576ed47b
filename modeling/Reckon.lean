import Reckon.Main
import Reckon.Proofs.Evaluation.Plain
import Reckon.Proofs.Grammar
import Reckon.Proofs.Grammar.Longest
import Reckon.Proofs.Grammar.Completeness
import Reckon.Proofs.Parser.Outcome
import Reckon.Proofs.Grammar.Soundness
import Reckon.Proofs.Grammar.Uniqueness
import Reckon.Proofs.Grammar.Acceptance
import Reckon.Proofs.Grammar.Settled
import Reckon.Proofs.Parser.Closing
import Reckon.Proofs.Parser.Refusal
import Reckon.Proofs.Evaluation.Effect
import Reckon.Proofs.Lexer.Lexeme
import Reckon.Proofs.Lexer.Piece
import Reckon.Proofs.Lexer.Scan
import Reckon.Proofs.Alike
import Reckon.Proofs.Parser.Alike
import Reckon.Proofs.Evaluation.Alike
import Reckon.Proofs.Lexer.Layout
import Reckon.Proofs.Session.Layout
import Reckon.Proofs.Evaluation.Levels
import Reckon.Proofs.Parser.Nesting
import Reckon.Proofs.Evaluation.Nesting
import Reckon.Proofs.Store.History
import Reckon.Proofs.Evaluation.Origin
import Reckon.Proofs.Session.Stages
import Reckon.Proofs.Session.History
import Reckon.Proofs.Text.Lines
import Reckon.Proofs.Console.Dialogue
import Reckon.Proofs.Text.Places
import Reckon.Proofs.Session.Places
import Reckon.Proofs.Parser.Reading
import Reckon.Proofs.Grammar.Readings
import Reckon.Proofs.Parser.Limits
import Reckon.Proofs.Parser.Named
import Reckon.Proofs.Parser.Height
import Reckon.Proofs.Parser.Clauses
import Reckon.Proofs.Parser.Regions
import Reckon.Proofs.Parser.Spans
import Reckon.Proofs.Session.Caret
import Reckon.Proofs.Evaluation.Traceback
import Reckon.Proofs.Evaluation.Faults
import Reckon.Proofs.Evaluation.Visits
import Reckon.Proofs.Evaluation.Counter
import Reckon.Proofs.Number.Magnitude
import Reckon.Proofs.Number.Literal
import Reckon.Proofs.Parser.Joined
import Reckon.Proofs.Grammar.Printing
import Reckon.Proofs.Evaluation.Mentions
import Reckon.Proofs.Lexer.Resumption
import Reckon.Proofs.Number.Sides
import Reckon.Proofs.Number.Printed
import Reckon.Proofs.Parser.Descent
import Reckon.Proofs.Parser.Cursor
import Reckon.Proofs.Parser.Attempts
import Reckon.Proofs.Parser.Productions
import Reckon.Proofs.Parser.Calls
