import Propositional.TruthTable

namespace Propositional

/-- What a knowledge base says about a statement. -/
inductive Verdict
  | definitelyTrue
  | definitelyFalse
  | undetermined
  | contradictory
  deriving DecidableEq

/-- Whether a statement follows, and whether its negation does. -/
structure Decision where
  holds : Bool
  fails : Bool
  deriving DecidableEq

namespace Decision

/-- Puts a statement and then its negation to a base. -/
def reach (base statement : Formula) (fixed : Assignment) : Except EvalError Decision := do
  let holds ← entails base statement fixed
  let fails ← entails base statement.negate fixed
  return ⟨holds, fails⟩

/-- Both follow only where nothing is consistent with what is known. -/
def verdict : Decision → Verdict
  | ⟨true, false⟩ => .definitelyTrue
  | ⟨false, true⟩ => .definitelyFalse
  | ⟨false, false⟩ => .undetermined
  | ⟨true, true⟩ => .contradictory

end Decision

namespace Verdict

def text : Verdict → String
  | definitelyTrue => "Definitely True"
  | definitelyFalse => "Definitely False"
  | undetermined => "Possibly True, possibly False"
  | contradictory => "Both True and False"

end Verdict

end Propositional
