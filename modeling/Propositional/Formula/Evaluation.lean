import Propositional.Assignment
import Propositional.Formula.Basic

namespace Propositional

/-- Why a formula has no value under an assignment. -/
inductive EvalError
  | unboundSymbol (name : String)
  | missingOperand (connective : Connective) (found : Nat)
  | unknownConnective (word : String)
  deriving DecidableEq

namespace Formula

mutual

/-- The value of a formula under an assignment. Operands are evaluated from left to right and only
    as far as they decide the value; those beyond the number that a connective needs are ignored. -/
def evaluate (a : Assignment) : Formula → Except EvalError Bool
  | symbol name =>
    match a.get? name with
    | some value => .ok value
    | none => .error (.unboundSymbol name)
  | apply .conj fs => evaluateAll a fs
  | apply .disj fs => evaluateAny a fs
  | apply .neg (f :: _) => do return !(← evaluate a f)
  | apply .imp (f :: g :: _) => do
    if ← evaluate a f then evaluate a g else return true
  | apply .iff (f :: g :: _) => do
    let left ← evaluate a f
    let right ← evaluate a g
    return left == right
  | apply .xor (f :: g :: _) => do
    let left ← evaluate a f
    let right ← evaluate a g
    return left != right
  | apply (.unknown word) _ => .error (.unknownConnective word)
  | apply connective fs => .error (.missingOperand connective fs.length)

/-- Whether all formulas are true, where the first false one ends the walk. -/
def evaluateAll (a : Assignment) : List Formula → Except EvalError Bool
  | [] => .ok true
  | f :: fs => do
    if ← evaluate a f then evaluateAll a fs else return false

/-- Whether a formula is true, where the first true one ends the walk. -/
def evaluateAny (a : Assignment) : List Formula → Except EvalError Bool
  | [] => .ok false
  | f :: fs => do
    if ← evaluate a f then return true else evaluateAny a fs

end

end Formula

end Propositional
