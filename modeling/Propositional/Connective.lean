namespace Propositional

/-- What joins the operands of a formula. A word that names none of the six connectives is kept as
    it was written. -/
inductive Connective
  | conj
  | disj
  | neg
  | imp
  | iff
  | xor
  | unknown (word : String)
  deriving DecidableEq, Inhabited

namespace Connective

/-- The connective that a word names, whatever the case of its ASCII letters. -/
def ofWord (word : String) : Connective :=
  match word.toList.map Char.toLower with
  | ['a', 'n', 'd'] => conj
  | ['o', 'r'] => disj
  | ['n', 'o', 't'] => neg
  | ['i', 'f'] => imp
  | ['i', 'f', 'f'] => iff
  | ['x', 'o', 'r'] => xor
  | _ => unknown word

/-- The word written for a connective: lower case for the six known ones. -/
def name : Connective → String
  | conj => "and"
  | disj => "or"
  | neg => "not"
  | imp => "if"
  | iff => "iff"
  | xor => "xor"
  | unknown word => word

def isKnown : Connective → Bool
  | unknown _ => false
  | _ => true

/-- The number of operands that a well-formed application has, where that number is fixed. -/
def arity? : Connective → Option Nat
  | neg => some 1
  | imp | iff => some 2
  | _ => none

@[simp] theorem ofWord_name {c : Connective} (hc : c.isKnown = true) : ofWord c.name = c := by
  cases c with
  | unknown word => simp [isKnown] at hc
  | _ => rfl

end Connective

end Propositional
