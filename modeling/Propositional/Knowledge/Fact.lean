import Propositional.Text.Blank

namespace Propositional.Knowledge

/-- A line that holds nothing, or a comment. -/
def isSkipped (line : String) : Bool :=
  line == "" || line.toList.head? == some '#'

/-- The symbol and value that a line fixes by the look of its tokens alone. One token fixes itself
    to true. Of two tokens, where the first is `not` behind one character, the second without its
    last character is fixed to false. -/
def fact? (line : String) : Option (String × Bool) :=
  match Text.tokens line with
  | [token] => some (token, true)
  | [first, second] =>
    if first.toList.tail = ['n', 'o', 't'] then some (String.ofList second.toList.dropLast, false)
    else none
  | _ => none

end Propositional.Knowledge
