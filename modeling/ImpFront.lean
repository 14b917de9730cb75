import ImpFront.Main
import ImpFront.Outline.Summary
import ImpFront.Outline.Unplaced
import ImpFront.Parse.Request
import ImpFront.Source.Cursor
import ImpFront.Syntax.Erasure
import ImpFront.Syntax.Layout
import ImpFront.Syntax.Nesting
import ImpFront.Syntax.Order
import ImpFront.Syntax.Precedence
import ImpFront.Syntax.Renaming
import ImpFront.Syntax.Sign
import ImpFront.Token.Class
import ImpFront.Token.Fault
import ImpFront.Token.Kind
import ImpFront.Token.Passage
import ImpFront.Proofs.Diagnostic.Caret
import ImpFront.Proofs.Diagnostic.Rows
import ImpFront.Proofs.Outline.Displaced
import ImpFront.Proofs.Outline.Finding
import ImpFront.Proofs.Outline.Openings
import ImpFront.Proofs.Outline.Placements
import ImpFront.Proofs.Outline.Summary
import ImpFront.Proofs.Parse.Braces
import ImpFront.Proofs.Parse.Concatenation
import ImpFront.Proofs.Parse.Cut
import ImpFront.Proofs.Parse.Dispatch
import ImpFront.Proofs.Parse.EndOfInput
import ImpFront.Proofs.Parse.ErrorPlace
import ImpFront.Proofs.Parse.Excerpts
import ImpFront.Proofs.Parse.ExprAcceptance
import ImpFront.Proofs.Parse.ExprCut
import ImpFront.Proofs.Parse.ExprReading
import ImpFront.Proofs.Parse.ExprSpans
import ImpFront.Proofs.Parse.Grammar
import ImpFront.Proofs.Parse.Keeps
import ImpFront.Proofs.Parse.KindsAlone
import ImpFront.Proofs.Parse.LowerMinimum
import ImpFront.Proofs.Parse.NestingLimit
import ImpFront.Proofs.Parse.Prescribed
import ImpFront.Proofs.Parse.ProductionsKeep
import ImpFront.Proofs.Parse.ProgramAcceptance
import ImpFront.Proofs.Parse.ProgramReading
import ImpFront.Proofs.Parse.ProgramSpans
import ImpFront.Proofs.Parse.Requests
import ImpFront.Proofs.Parse.Run
import ImpFront.Proofs.Parse.StatementAcceptance
import ImpFront.Proofs.Parse.StatementReading
import ImpFront.Proofs.Parse.StatementSpans
import ImpFront.Proofs.Parse.Trace
import ImpFront.Proofs.Parse.TreeDepth
import ImpFront.Proofs.Parse.Unlisted
import ImpFront.Proofs.Parse.Yields
import ImpFront.Proofs.Print.ExprScan
import ImpFront.Proofs.Print.RoundTrip
import ImpFront.Proofs.Print.StatementScan
import ImpFront.Proofs.Source.Lines
import ImpFront.Proofs.Syntax.Erased
import ImpFront.Proofs.Syntax.Labels
import ImpFront.Proofs.Syntax.Laid
import ImpFront.Proofs.Syntax.Members
import ImpFront.Proofs.Syntax.Nested
import ImpFront.Proofs.Syntax.Renamed
import ImpFront.Proofs.Syntax.Shapes
import ImpFront.Proofs.Syntax.Visits
import ImpFront.Proofs.Text.Escape
import ImpFront.Proofs.Text.Quotes
import ImpFront.Proofs.Token.Acceptance
import ImpFront.Proofs.Token.Counters
import ImpFront.Proofs.Token.Faults
import ImpFront.Proofs.Token.Joined
import ImpFront.Proofs.Token.Literals
import ImpFront.Proofs.Token.LongestMatch
import ImpFront.Proofs.Token.Lossless
import ImpFront.Proofs.Token.Scans
import ImpFront.Proofs.Token.Sliced
