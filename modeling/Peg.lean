import Peg.Main
import Peg.Proofs.Grammar.RoundTrip
import Peg.Proofs.Program.Checked
import Peg.Proofs.Program.Classic
import Peg.Proofs.Program.Correct
import Peg.Sample.Echoes
import Peg.Sample.Lists
import Peg.Sample.Locals
import Peg.Sample.Sums
import Peg.Proofs.Run.Alike
import Peg.Proofs.Program.Moved
import Peg.Proofs.Program.Lossless
import Peg.Proofs.Program.Host
import Peg.Generated.Run
import Peg.Proofs.Program.Layered
import Peg.Proofs.Sample.Function
import Peg.Proofs.Generated.Agree
import Peg.Proofs.Sample.Agree
import Peg.Proofs.Generated.OfGrammar
import Peg.Proofs.Program.Instance
import Peg.Proofs.Grammar.SelfHosting
import Peg.Proofs.Grammar.Typed
import Peg.Proofs.Grammar.Tiling
import Peg.Proofs.Program.Order
import Peg.Proofs.Program.Foreseen
import Peg.Proofs.Program.Exact
import Peg.Proofs.Program.Active
import Peg.Proofs.Program.CyclePath
import Peg.Proofs.Generated.MatchedText
import Peg.Proofs.Grammar.Furthest
import Peg.Proofs.Program.Stalled
import Peg.Proofs.Mapper.Derivation
import Peg.Proofs.Generated.Functions
import Peg.Proofs.Host.Substitution
import Peg.Proofs.Program.Patterns
import Peg.Proofs.Program.Nesting
import Peg.Proofs.Text.Lines
import Peg.Proofs.Program.Relaxed
import Peg.Proofs.Sample.GeneratedSums
import Peg.Proofs.Generated.RegexTable
import Peg.Proofs.Program.LeastTables
import Peg.Proofs.Run.Repetition
import Peg.Proofs.Grammar.Delimited
import Peg.Proofs.Mapper.Grouping
import Peg.Proofs.Program.Backward
