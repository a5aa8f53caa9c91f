import Propositional.Connective

namespace Propositional

/-- A propositional formula: a symbol, or a connective applied to operands. Neither the number of
    operands nor the spelling of a symbol is restricted; `Formula.check` states what is. -/
inductive Formula
  | symbol (name : String)
  | apply (connective : Connective) (operands : List Formula)
  deriving Inhabited

namespace Formula

mutual

/-- Formulas can be compared for equality. -/
def decEq : (f g : Formula) → Decidable (f = g)
  | symbol a, symbol b =>
    if same : a = b then isTrue (congrArg symbol same) else isFalse fun h => same (symbol.inj h)
  | apply c fs, apply d gs =>
    if same : c = d then
      match decEqAll fs gs with
      | isTrue h => isTrue (same ▸ h ▸ rfl)
      | isFalse h => isFalse fun e => h (apply.inj e).2
    else isFalse fun e => same (apply.inj e).1
  | symbol _, apply _ _ => isFalse nofun
  | apply _ _, symbol _ => isFalse nofun

def decEqAll : (fs gs : List Formula) → Decidable (fs = gs)
  | [], [] => isTrue rfl
  | f :: fs, g :: gs =>
    match decEq f g, decEqAll fs gs with
    | isTrue head, isTrue tail => isTrue (head ▸ tail ▸ rfl)
    | isFalse head, _ => isFalse fun e => head (List.cons.inj e).1
    | _, isFalse tail => isFalse fun e => tail (List.cons.inj e).2
  | [], _ :: _ => isFalse nofun
  | _ :: _, [] => isFalse nofun

end

instance : DecidableEq Formula := decEq

/-- Induction where an application may assume the statement of each of its operands. -/
@[induction_eliminator]
theorem induction {motive : Formula → Prop} (symbol : ∀ name, motive (symbol name))
    (apply : ∀ connective operands, (∀ f ∈ operands, motive f) → motive (apply connective operands)) :
    ∀ f, motive f
  | .symbol name => symbol name
  | .apply connective operands => apply connective operands fun f _ => induction symbol apply f

/-- The conjunction of some formulas, also of none. -/
def all (fs : List Formula) : Formula :=
  apply .conj fs

def negate (f : Formula) : Formula :=
  apply .neg [f]

mutual

/-- The number of symbols and connectives in a formula. -/
def size : Formula → Nat
  | symbol _ => 1
  | apply _ operands => 1 + sizeAll operands

def sizeAll : List Formula → Nat
  | [] => 0
  | f :: fs => size f + sizeAll fs

end

theorem size_pos (f : Formula) : 0 < f.size := by
  cases f <;> simp only [size] <;> omega

end Formula

end Propositional
