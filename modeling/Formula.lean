import Formula.Main
import Formula.Session
import Formula.Proofs.Cursor
import Formula.Proofs.Dialogue
import Formula.Proofs.Grammar
import Formula.Proofs.Grammar.Reading
import Formula.Proofs.Parser.Completeness
import Formula.Proofs.Build
import Formula.Proofs.Calls
import Formula.Proofs.Compile
import Formula.Proofs.EarliestError
import Formula.Proofs.Nesting
import Formula.Proofs.FirstFailure
import Formula.Proofs.Contract
import Formula.Proofs.Loosening
import Formula.Proofs.Respelling
import Formula.Proofs.Splitting
import Formula.Proofs.Scanner.Progress
import Formula.Proofs.Scanner.Errors
import Formula.Proofs.LineBreaks
import Formula.Proofs.Fusion
import Formula.Proofs.Collecting
import Formula.Proofs.Session
import Formula.Proofs.Written
import Formula.Proofs.Parentheses
import Formula.Proofs.Recorded
import Formula.Proofs.Refs
import Formula.Proofs.Number.Exact
import Formula.Proofs.Paths
import Formula.Proofs.Json
import Formula.Proofs.Events
import Formula.Proofs.Naming
import Formula.Proofs.Entries
import Formula.Proofs.Number.Canonical
import Formula.Proofs.Effort
import Formula.Proofs.Reuse
