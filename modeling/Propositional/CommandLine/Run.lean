import Propositional.CommandLine.Event

namespace Propositional.CommandLine

/-- What a run, or part of one, comes to: its events, and its result or the error that ended it. -/
structure Run (α : Type) where
  events : List Event
  result : Except Error α

end Propositional.CommandLine
