import Propositional.Formula.Basic

namespace Propositional.Formula

mutual

/-- Truth under a value for every symbol. An application that lacks an operand, or whose connective
    is unknown, counts as false; a well-formed formula has none. -/
def truth (v : String → Bool) : Formula → Bool
  | symbol name => v name
  | apply .conj fs => truthAll v fs
  | apply .disj fs => truthAny v fs
  | apply .neg (f :: _) => !truth v f
  | apply .imp (f :: g :: _) => !truth v f || truth v g
  | apply .iff (f :: g :: _) => truth v f == truth v g
  | apply .xor (f :: g :: _) => truth v f != truth v g
  | apply _ _ => false

def truthAll (v : String → Bool) : List Formula → Bool
  | [] => true
  | f :: fs => truth v f && truthAll v fs

def truthAny (v : String → Bool) : List Formula → Bool
  | [] => false
  | f :: fs => truth v f || truthAny v fs

end

theorem truthAll_eq_all (v : String → Bool) (fs : List Formula) :
    truthAll v fs = fs.all (truth v) := by
  induction fs with
  | nil => rfl
  | cons f fs ih => simp only [truthAll, List.all_cons, ih]

theorem truthAny_eq_any (v : String → Bool) (fs : List Formula) :
    truthAny v fs = fs.any (truth v) := by
  induction fs with
  | nil => rfl
  | cons f fs ih => simp only [truthAny, List.any_cons, ih]

end Propositional.Formula
