import Propositional.Error
import Propositional.Text.Lines

namespace Propositional.Statement

/-- Reads the formula on the first line of a text. The lines behind it are ignored. -/
def read (text : String) : Except Error Reading :=
  match Text.lines text with
  | [] => .error .missingStatement
  | line :: _ => (Formula.read (Text.stripTerminators line)).mapError (.parse "statement" 1)

/-- A statement is a well-formed formula. -/
def check (f : Formula) : Except Error Unit :=
  f.check.mapError .invalidStatement

/-- The statement on the first line of a text. -/
def parse (text : String) : Except Error Formula := do
  let reading ← read text
  check reading.formula
  return reading.formula

end Propositional.Statement
