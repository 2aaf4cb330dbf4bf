import Sequitur.Analysis
import Sequitur.Archive
import Sequitur.Archive.RoundTrip
import Sequitur.Argument
import Sequitur.Assignment
import Sequitur.Atoms
import Sequitur.Column
import Sequitur.Formula
import Sequitur.Formula.Eval
import Sequitur.Formula.Parser
import Sequitur.Formula.Printer
import Sequitur.Instant
import Sequitur.Instant.Printer
import Sequitur.Instant.Reader
import Sequitur.Instant.RoundTrip
import Sequitur.Intake
import Sequitur.Json
import Sequitur.Json.Reader
import Sequitur.Json.Record
import Sequitur.Json.RoundTrip
import Sequitur.Keccak
import Sequitur.Outcome.Report
import Sequitur.Proofs.Assignments
import Sequitur.Proofs.Bookkeeping
import Sequitur.Proofs.ByteOrder
import Sequitur.Proofs.Calls
import Sequitur.Proofs.Canonical
import Sequitur.Proofs.Ceiling
import Sequitur.Proofs.Checked
import Sequitur.Proofs.Collection
import Sequitur.Proofs.Delimited
import Sequitur.Proofs.Depth
import Sequitur.Proofs.Durability
import Sequitur.Proofs.Entailment
import Sequitur.Proofs.Enumeration
import Sequitur.Proofs.Failures
import Sequitur.Proofs.FlatRows
import Sequitur.Proofs.Grammar
import Sequitur.Proofs.Ladder
import Sequitur.Proofs.LeastCounterexample
import Sequitur.Proofs.Lexemes
import Sequitur.Proofs.Lexing
import Sequitur.Proofs.Masks
import Sequitur.Proofs.Offsets
import Sequitur.Proofs.PrefixStable
import Sequitur.Proofs.Readable
import Sequitur.Proofs.Reading
import Sequitur.Proofs.Recognition
import Sequitur.Proofs.RecordForms
import Sequitur.Proofs.Renaming
import Sequitur.Proofs.Reports
import Sequitur.Proofs.Requests
import Sequitur.Proofs.Rereading
import Sequitur.Proofs.Routes
import Sequitur.Proofs.Runs
import Sequitur.Proofs.Scan
import Sequitur.Proofs.SealInfo
import Sequitur.Proofs.SideBySide
import Sequitur.Proofs.Spellings
import Sequitur.Proofs.Steps
import Sequitur.Proofs.Truth
import Sequitur.Proofs.TruthTable
import Sequitur.Proofs.Unbound
import Sequitur.Proofs.UniqueReadability
import Sequitur.Proofs.Untrusted
import Sequitur.Proofs.Verdicts
import Sequitur.Proofs.Visits
import Sequitur.Proofs.Weakening
import Sequitur.Proofs.Window
import Sequitur.Proofs.Zones
import Sequitur.Row
import Sequitur.Seal
import Sequitur.Service
import Sequitur.Settings
import Sequitur.SyntaxError
import Sequitur.Table
import Sequitur.Text.Blank
import Sequitur.Text.Combining
import Sequitur.Text.Decimal
import Sequitur.Text.Quoted
import Sequitur.Text.Ranges
import Sequitur.Text.Unprintable
import Sequitur.Token
import Sequitur.Token.Lexer
