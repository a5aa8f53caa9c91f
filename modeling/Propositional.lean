import Propositional.Formula.Semantics
import Propositional.Main
import Propositional.Proofs.CommandLine.Quiet
import Propositional.Proofs.Descent.Progress
import Propositional.Proofs.Formula.NormalForm
import Propositional.Proofs.Formula.Refusal
import Propositional.Proofs.Formula.RoundTrip
import Propositional.Proofs.Formula.Spacing
import Propositional.Proofs.Formula.Stability
import Propositional.Proofs.Knowledge.Echo
import Propositional.Proofs.Knowledge.Edits
import Propositional.Proofs.Knowledge.Effect
import Propositional.Proofs.Knowledge.Failure
import Propositional.Proofs.Knowledge.Negation
import Propositional.Proofs.Knowledge.Sources
import Propositional.Proofs.Knowledge.StatedFact
import Propositional.Proofs.Knowledge.Validation
import Propositional.Proofs.Knowledge.Verdicts
import Propositional.Proofs.TruthTable.Deduction
import Propositional.Proofs.TruthTable.FirstOccurrences
import Propositional.Proofs.TruthTable.Fixing
import Propositional.Proofs.TruthTable.Trimming
import Propositional.Proofs.TruthTable.Walk
