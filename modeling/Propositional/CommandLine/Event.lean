import Propositional.Error
import Propositional.Verdict

namespace Propositional.CommandLine

/-- The parts of a run that are announced in the log. -/
inductive Stage
  | rules
  | additional
  | statement
  deriving DecidableEq

/-- What a run lets be seen, in the order in which it happens. -/
inductive Event
  | started (stage : Stage)
  | leftOver (trailing : TrailingInput)
  | showedBase (base : Formula)
  | showedStatement (statement : Formula)
  | concluded (verdict : Verdict)
  deriving DecidableEq

namespace Event

/-- What an event prints. -/
def output : Event → String
  | started _ | leftOver _ => ""
  | showedBase base => base.render "\n" ++ "\n"
  | showedStatement statement => "\nChecking statement: " ++ statement.text ++ "\n"
  | concluded verdict => "\n" ++ verdict.text ++ "\n\n"

/-- What an event adds to the log. -/
def log : Event → String
  | started .rules => "INFO ttentails: Loading wumpus rules...\n"
  | started .additional => "INFO ttentails: Loading additional knowledge...\n"
  | started .statement => "INFO ttentails: Loading statement...\n"
  | leftOver trailing => "WARN ttentails::prop_tree: " ++ trailing.message ++ "\n"
  | showedBase _ | showedStatement _ | concluded _ => ""

end Event

end Propositional.CommandLine
