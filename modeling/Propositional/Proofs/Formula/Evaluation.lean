import Propositional.Formula.Evaluation
import Propositional.Formula.Semantics
import Propositional.Proofs.Assignment
import Propositional.Proofs.Formula.Subformulas

namespace Propositional

/-- The number of operands that evaluation reads whatever their values are. -/
def Connective.required : Connective → Nat
  | .neg => 1
  | .imp | .iff | .xor => 2
  | _ => 0

namespace Formula

/-- Why a formula itself cannot be evaluated, whatever its operands are. -/
def fault? (a : Assignment) : Formula → Option EvalError
  | symbol name => if (a.get? name).isSome then none else some (.unboundSymbol name)
  | apply (.unknown word) _ => some (.unknownConnective word)
  | apply connective operands =>
    if operands.length < connective.required then
      some (.missingOperand connective operands.length)
    else none

mutual

/-- The subformulas that evaluation from left to right comes to under a
    valuation, an application before its operands. Operands that no longer
    matter for the value are left out. -/
def visited (v : String → Bool) : Formula → List Formula
  | symbol name => [symbol name]
  | apply .conj fs => apply .conj fs :: visitedUntil v false fs
  | apply .disj fs => apply .disj fs :: visitedUntil v true fs
  | apply .neg (f :: fs) => apply .neg (f :: fs) :: visited v f
  | apply .imp (f :: g :: fs) =>
    apply .imp (f :: g :: fs) :: (visited v f ++ if truth v f then visited v g else [])
  | apply .iff (f :: g :: fs) => apply .iff (f :: g :: fs) :: (visited v f ++ visited v g)
  | apply .xor (f :: g :: fs) => apply .xor (f :: g :: fs) :: (visited v f ++ visited v g)
  | apply connective fs => [apply connective fs]

/-- What evaluation comes to in a row of formulas that it leaves behind the first
    one of the given value. -/
def visitedUntil (v : String → Bool) (value : Bool) : List Formula → List Formula
  | [] => []
  | f :: fs => visited v f ++ if truth v f = value then [] else visitedUntil v value fs

end

variable {a : Assignment} {v : String → Bool}

/-- The value of a formula, unless one of the given subformulas has a fault. The
    first fault is the one that counts. -/
def outcome (a : Assignment) (fs : List Formula) (value : Bool) : Except EvalError Bool :=
  (fs.findSome? (fault? a)).elim (.ok value) .error

theorem outcome_append (fs gs : List Formula) (value : Bool) :
    outcome a (fs ++ gs) value = (fs.findSome? (fault? a)).elim (outcome a gs value) .error := by
  simp only [outcome, List.findSome?_append]
  cases fs.findSome? (fault? a) <;> rfl

theorem outcome_cons_of_fault?_eq_none {f : Formula} (h : f.fault? a = none) (fs : List Formula)
    (value : Bool) : outcome a (f :: fs) value = outcome a fs value := by
  simp only [outcome, List.findSome?_cons, h]

theorem outcome_bind (fs : List Formula) (value : Bool) (next : Bool → Except EvalError Bool) :
    (outcome a fs value >>= next) = (fs.findSome? (fault? a)).elim (next value) .error := by
  rw [outcome]
  cases fs.findSome? (fault? a) <;> rfl

theorem evaluateAll_eq {fs : List Formula}
    (h : ∀ f ∈ fs, f.evaluate a = outcome a (f.visited v) (f.truth v)) :
    evaluateAll a fs = outcome a (visitedUntil v false fs) (truthAll v fs) := by
  induction fs with
  | nil => rfl
  | cons f fs ih =>
    have hfs := ih fun g hg => h g (by simp [hg])
    rw [evaluateAll, h f (by simp), outcome_bind, visitedUntil, truthAll, outcome_append, hfs]
    cases f.truth v <;> rfl

theorem evaluateAny_eq {fs : List Formula}
    (h : ∀ f ∈ fs, f.evaluate a = outcome a (f.visited v) (f.truth v)) :
    evaluateAny a fs = outcome a (visitedUntil v true fs) (truthAny v fs) := by
  induction fs with
  | nil => rfl
  | cons f fs ih =>
    have hfs := ih fun g hg => h g (by simp [hg])
    rw [evaluateAny, h f (by simp), outcome_bind, visitedUntil, truthAny, outcome_append, hfs]
    cases f.truth v <;> rfl

theorem evaluate_symbol (h : a.Agrees v) (name : String) :
    (symbol name).evaluate a = outcome a [symbol name] (v name) := by
  simp only [evaluate, outcome, List.findSome?_singleton, fault?]
  cases hget : a.get? name with
  | none => rfl
  | some value => simp [h name value hget]

/-- Evaluation gives the truth value under any valuation that agrees with the
    assignment, unless a subformula that it comes to has a fault; then it gives
    the first such fault. Neither well-formedness nor a value for every symbol
    is needed. -/
theorem evaluate_eq_outcome (h : a.Agrees v) (f : Formula) :
    f.evaluate a = outcome a (f.visited v) (f.truth v) := by
  induction f with
  | symbol name => exact evaluate_symbol h name
  | apply c operands ih =>
    cases c with
    | conj =>
      rw [evaluate, evaluateAll_eq ih, visited, truth, outcome_cons_of_fault?_eq_none rfl]
    | disj =>
      rw [evaluate, evaluateAny_eq ih, visited, truth, outcome_cons_of_fault?_eq_none rfl]
    | neg =>
      match operands with
      | [] => rfl
      | f :: fs =>
        rw [evaluate, ih f (by simp), outcome_bind, visited, truth,
          outcome_cons_of_fault?_eq_none rfl]
        rfl
    | imp =>
      match operands with
      | [] => rfl
      | [f] => rfl
      | f :: g :: fs =>
        rw [evaluate, ih f (by simp), outcome_bind, ih g (by simp), visited, truth,
          outcome_cons_of_fault?_eq_none rfl, outcome_append]
        cases f.truth v <;> rfl
    | iff =>
      match operands with
      | [] => rfl
      | [f] => rfl
      | f :: g :: fs =>
        rw [evaluate, ih f (by simp), outcome_bind, ih g (by simp), outcome_bind, visited, truth,
          outcome_cons_of_fault?_eq_none rfl, outcome_append]
        rfl
    | xor =>
      match operands with
      | [] => rfl
      | [f] => rfl
      | f :: g :: fs =>
        rw [evaluate, ih f (by simp), outcome_bind, ih g (by simp), outcome_bind, visited, truth,
          outcome_cons_of_fault?_eq_none rfl, outcome_append]
        rfl
    | unknown word => rfl

end Formula

end Propositional
