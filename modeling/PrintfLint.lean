import PrintfLint.Grammar.Listing
import PrintfLint.Main
import PrintfLint.Service.Answer
import PrintfLint.Session
import PrintfLint.Token.Cursor
import PrintfLint.Proofs.Grammar.Derivation
import PrintfLint.Proofs.Grammar.First
import PrintfLint.Proofs.Grammar.Follow
import PrintfLint.Proofs.Grammar.Table
import PrintfLint.Proofs.Grammar.Decision
import PrintfLint.Proofs.Grammar.Trace
import PrintfLint.Proofs.Grammar.Exact
import PrintfLint.Proofs.Statement.Phrase
import PrintfLint.Proofs.Token.Shape
import PrintfLint.Proofs.Statement.Attempt
import PrintfLint.Proofs.Statement.Moved
import PrintfLint.Proofs.Statement.Lookahead
import PrintfLint.Proofs.Token.Tiling
import PrintfLint.Proofs.Token.Strictness
import PrintfLint.Proofs.Token.Layout
import PrintfLint.Proofs.Statement.Verdict
import PrintfLint.Proofs.Statement.Judgement
import PrintfLint.Proofs.Statement.Viable
import PrintfLint.Proofs.Statement.Recognition
import PrintfLint.Proofs.Verdict.Strictness
import PrintfLint.Proofs.Verdict.Layout
import PrintfLint.Proofs.Text.Lines
import PrintfLint.Proofs.Token.Moved
import PrintfLint.Proofs.Verdict.Source
import PrintfLint.Proofs.Verdict.Reason
import PrintfLint.Proofs.Verdict.Finding
import PrintfLint.Proofs.Command.Arguments
import PrintfLint.Proofs.FrontEnds
import PrintfLint.Proofs.Grammar.Cells
import PrintfLint.Proofs.Grammar.Unambiguous
import PrintfLint.Proofs.Statement.Atoms
import PrintfLint.Proofs.Verdict.Propagation
import PrintfLint.Proofs.Token.Front
import PrintfLint.Proofs.Token.Fault
import PrintfLint.Proofs.Token.Seam
import PrintfLint.Proofs.Token.Resume
import PrintfLint.Proofs.Verdict.Minified
import PrintfLint.Proofs.Statement.Depth
import PrintfLint.Proofs.Statement.Ending
import PrintfLint.Proofs.Token.Slice
import PrintfLint.Proofs.Statement.Extent
import PrintfLint.Proofs.Verdict.Argument
import PrintfLint.Proofs.Verdict.Places
import PrintfLint.Proofs.Text.Terminator
import PrintfLint.Proofs.Statement.Session
import PrintfLint.Proofs.Statement.Progress
import PrintfLint.Proofs.Statement.Opening
import PrintfLint.Proofs.Statement.AllOrNothing
import PrintfLint.Proofs.Verdict.Directive
import PrintfLint.Proofs.Token.Dump
import PrintfLint.Proofs.Data.Levels
import PrintfLint.Proofs.Statement.Local
import PrintfLint.Proofs.Token.Run
import PrintfLint.Proofs.Scanners
import PrintfLint.Proofs.Grammar.Sequence
