import Propositional.Formula.Basic
import Propositional.Text.Word

namespace Propositional

/-- Why a formula is not well formed. -/
inductive ValidationError
  | arity (connective : Connective) (expected found : Nat)
  | unknownConnective (word : String)
  | invalidSymbol (name : String)
  deriving DecidableEq

namespace Formula

mutual

/-- A formula is well formed if its symbols are words, its connectives are known, and each
    connective of fixed arity has that many operands. Otherwise the fault reported is the first one
    on a walk that visits an application before its operands. -/
def check : Formula → Except ValidationError Unit
  | symbol name => if Text.isWord name then .ok () else .error (.invalidSymbol name)
  | apply (.unknown word) _ => .error (.unknownConnective word)
  | apply connective operands =>
    match connective.arity? with
    | some expected =>
      if operands.length = expected then checkAll operands
      else .error (.arity connective expected operands.length)
    | none => checkAll operands

def checkAll : List Formula → Except ValidationError Unit
  | [] => .ok ()
  | f :: fs => do
    check f
    checkAll fs

end

def isValid (f : Formula) : Bool :=
  f.check matches .ok ()

end Formula

end Propositional
