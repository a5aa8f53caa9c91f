namespace Propositional.CommandLine

/-- The files of a run, and whether the knowledge base and the statement are shown. -/
structure Options where
  rules : String
  additional : String
  statement : String
  output : String
  quiet : Bool
  deriving DecidableEq

end Propositional.CommandLine
