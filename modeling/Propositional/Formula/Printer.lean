import Propositional.Formula.Basic

namespace Propositional.Formula

mutual

/-- The text of a formula. An application stands in parentheses, its connective first and one space
    before each operand. -/
def text : Formula → String
  | symbol name => name
  | apply connective operands => "(" ++ connective.name ++ textAll operands ++ ")"

def textAll : List Formula → String
  | [] => ""
  | f :: fs => " " ++ text f ++ textAll fs

end

def renderAll (separator : String) : List Formula → String
  | [] => ""
  | f :: fs => " " ++ f.text ++ separator ++ renderAll separator fs

/-- The text of a formula with a separator after each operand of the outermost connective. Deeper
    operands are not separated. -/
def render (separator : String) : Formula → String
  | symbol name => name
  | apply connective operands => "(" ++ connective.name ++ renderAll separator operands ++ ")"

theorem renderAll_empty (fs : List Formula) : renderAll "" fs = textAll fs := by
  induction fs with
  | nil => rfl
  | cons f fs ih => simp only [renderAll, textAll, ih, String.append_empty]

@[simp] theorem render_empty (f : Formula) : f.render "" = f.text := by
  cases f with
  | symbol name => simp only [render, text]
  | apply connective operands => simp only [render, text, renderAll_empty]

end Propositional.Formula
