import StatementLang.Cursor
import StatementLang.Main
import StatementLang.Proofs.Course
import StatementLang.Proofs.Steps
import StatementLang.Proofs.Upcoming
import StatementLang.Proofs.Forest
import StatementLang.Proofs.Productions
import StatementLang.Proofs.Prediction
import StatementLang.Proofs.Trees
import StatementLang.Proofs.Layers
import StatementLang.Proofs.Verdict
import StatementLang.Proofs.Traversal
import StatementLang.Proofs.Words
import StatementLang.Proofs.Programs
import StatementLang.Proofs.Recognition
import StatementLang.Proofs.Accounting
import StatementLang.Proofs.Derivation
import StatementLang.Proofs.Trail
import StatementLang.Proofs.Viable
import StatementLang.Proofs.Completion
import StatementLang.Proofs.EarlyErrors
import StatementLang.Proofs.Places
import StatementLang.Proofs.Spelling
import StatementLang.Proofs.Scanning
import StatementLang.Proofs.Layout
import StatementLang.Proofs.Mirror
import StatementLang.Proofs.OnDemand
import StatementLang.Proofs.Writing
import StatementLang.Proofs.Alternatives
import StatementLang.Proofs.Work
import StatementLang.Proofs.Lookahead
import StatementLang.Proofs.Observation
import StatementLang.Proofs.Reports
import StatementLang.Proofs.Bystanders
import StatementLang.Proofs.Renderings
import StatementLang.Proofs.Kindred
import StatementLang.Proofs.Flags
import StatementLang.Proofs.Faults
import StatementLang.Proofs.Lines
import StatementLang.Proofs.Progress
import StatementLang.Proofs.LineEnds
import StatementLang.Proofs.Tandem
import StatementLang.Proofs.Twins
import StatementLang.Proofs.Files
import StatementLang.Proofs.Requests
import StatementLang.Proofs.Edges
import StatementLang.Proofs.OptionalSeparators
import StatementLang.Proofs.LongestMatch
import StatementLang.Proofs.Quoting
import StatementLang.Proofs.Printout
import StatementLang.Proofs.Returns
import StatementLang.Proofs.Refusals
import StatementLang.Proofs.Repetition
import StatementLang.Proofs.ErrorLines
