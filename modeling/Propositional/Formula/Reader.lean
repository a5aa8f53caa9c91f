import Propositional.Formula.Basic
import Propositional.Text.Word

namespace Propositional

/-- Why no formula could be read. A position is the number of UTF-8 bytes in front of it. -/
inductive ParseError
  | unexpectedCharacter (character : Char) (position : Nat)
  | unexpectedEnd (position : Nat)
  | emptyInput
  deriving DecidableEq

/-- Text other than spaces that was left over when a formula had been read. -/
structure TrailingInput where
  text : String
  formula : Formula
  deriving DecidableEq

namespace Formula.Reader

/-- An application that has not been closed, with the operands read so far, the latest first. -/
structure Frame where
  connective : Connective
  operands : List Formula

namespace Frame

/-- The application that a frame with this connective word begins. -/
def ofWord (word : List Char) : Frame :=
  ⟨.ofWord (String.ofList word), []⟩

def add (frame : Frame) (f : Formula) : Frame :=
  { frame with operands := f :: frame.operands }

def close (frame : Frame) : Formula :=
  .apply frame.connective frame.operands.reverse

end Frame

/-- What the next character continues: the space between items, the connective after an opening
    parenthesis, or a symbol. The characters of a word are held latest first. -/
inductive Focus
  | gap
  | connective (word : List Char)
  | symbol (word : List Char)

/-- The open applications, innermost first, and the item being read inside them. -/
structure State where
  frames : List Frame
  focus : Focus

/-- Before the first character nothing is open. -/
def start : State := ⟨[], .gap⟩

/-- The effect of one character: reading goes on, or the formula ends with this character or ended
    before it, or the character cannot stand here. -/
inductive Step
  | next (state : State)
  | endsWith (f : Formula)
  | endsBefore (f : Formula)
  | refuse

/-- A closing parenthesis makes the innermost application an operand of the one around it. With
    nothing open it ends a symbol without characters. -/
def close : List Frame → Step
  | [] => .endsBefore (.symbol "")
  | [frame] => .endsWith frame.close
  | frame :: outer :: frames => .next ⟨outer.add frame.close :: frames, .gap⟩

/-- A character between items. -/
def feedGap (frames : List Frame) (c : Char) : Step :=
  if c = ' ' then .next ⟨frames, .gap⟩
  else if c = '(' then .next ⟨frames, .connective []⟩
  else if c = ')' then close frames
  else if Text.isWordChar c then .next ⟨frames, .symbol [c]⟩
  else .refuse

/-- A word goes on with word characters. A space or a closing parenthesis ends it, and then counts
    as a character between items; nothing else may follow it directly. -/
def feed : State → Char → Step
  | ⟨frames, .gap⟩, c => feedGap frames c
  | ⟨frames, .connective word⟩, c =>
    if Text.isWordChar c then .next ⟨frames, .connective (c :: word)⟩
    else if c = ' ' ∨ c = ')' then feedGap (.ofWord word.reverse :: frames) c
    else .refuse
  | ⟨frames, .symbol word⟩, c =>
    if Text.isWordChar c then .next ⟨frames, .symbol (c :: word)⟩
    else if c = ' ' ∨ c = ')' then
      match frames with
      | [] => .endsBefore (.symbol (String.ofList word.reverse))
      | frame :: outer => feedGap (frame.add (.symbol (String.ofList word.reverse)) :: outer) c
    else .refuse

/-- The outcome when the text ends. Only a symbol outside all parentheses is complete then. -/
def finish : State → Nat → Except ParseError Formula
  | ⟨[], .gap⟩, _ => .error .emptyInput
  | ⟨[], .symbol word⟩, _ => .ok (.symbol (String.ofList word.reverse))
  | _, position => .error (.unexpectedEnd position)

/-- The number of bytes that some characters take. -/
def byteCount : List Char → Nat
  | [] => 0
  | c :: cs => c.utf8Size + byteCount cs

/-- Reads from a state on, where the position is that of the first character, up to the end of the
    formula; the second component is what follows it. -/
def run : State → Nat → List Char → Except ParseError (Formula × List Char)
  | state, position, [] => (finish state position).map (·, [])
  | state, position, c :: rest =>
    match feed state c with
    | .next state => run state (position + c.utf8Size) rest
    | .endsWith f => .ok (f, rest)
    | .endsBefore f => .ok (f, c :: rest)
    | .refuse => .error (.unexpectedCharacter c position)

end Formula.Reader

/-- A formula read from the start of a line, and the text behind it. -/
structure Reading where
  formula : Formula
  rest : List Char

namespace Reading

/-- What is left over, from its first character that is not a space. -/
def trailing? (r : Reading) : Option TrailingInput :=
  match r.rest.dropWhile (· == ' ') with
  | [] => none
  | text => some ⟨String.ofList text, r.formula⟩

end Reading

namespace Formula

/-- Reads the first formula of a line. -/
def read (line : String) : Except ParseError Reading :=
  (Reader.run Reader.start 0 line.toList).map fun (formula, rest) => ⟨formula, rest⟩

/-- The first formula of a line, whatever follows it. -/
def parse (line : String) : Except ParseError Formula :=
  (read line).map (·.formula)

end Formula

end Propositional
