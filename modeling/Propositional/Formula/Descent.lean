import Propositional.Formula.Cursor

namespace Propositional.Formula

/-- A turn of a loop after which the loop goes on: where the cursor stood before it and stands after
    it, and the operand that the turn added, if it added one. -/
structure Turn where
  before : Cursor
  after : Cursor
  operand? : Option Formula

/-- What a part of the reader has done when it is left: the cursor as it was at each of the calls
    made on it, the turns that its loops took, the cursor it leaves behind, and what it gives. -/
structure Outcome (α : Type) where
  calls : List Cursor
  turns : List Turn
  cursor : Cursor
  result : Except ParseError α

/-- The outcome as it looks from further up, behind these calls and turns. -/
def Outcome.behind {α : Type} (o : Outcome α) (calls : List Cursor) (turns : List Turn) :
    Outcome α :=
  { o with calls := calls ++ o.calls, turns := turns ++ o.turns }

/-- A part of the reader as a function of the cursor it is entered with. It has no outcome where the
    fuel is used up. -/
def Descent (α : Type) : Type := Cursor → Option (Outcome α)

namespace Descent

variable {α β : Type}

protected def pure (a : α) : Descent α := fun c => some ⟨[], [], c, .ok a⟩

/-- The first error ends the whole. -/
protected def bind (x : Descent α) (next : α → Descent β) : Descent β := fun c =>
  match x c with
  | none => none
  | some ⟨calls, turns, d, .ok a⟩ => (next a d).map (·.behind calls turns)
  | some ⟨calls, turns, d, .error e⟩ => some ⟨calls, turns, d, .error e⟩

instance : Monad Descent where
  pure := Descent.pure
  bind := Descent.bind

def fail (e : ParseError) : Descent α := fun c => some ⟨[], [], c, .error e⟩

def exhausted : Descent α := fun _ => none

/-- The cursor as it is, without a call on it. -/
def current : Descent Cursor := fun c => some ⟨[], [], c, .ok c⟩

def position : Descent Nat := fun c => some ⟨[c], [], c, .ok c.position⟩

def peek : Descent (Option Token) := fun c =>
  some ⟨[c], [], c.filled, .ok (c.filled.peeked.map Prod.fst)⟩

def bump : Descent Unit := fun c => some ⟨[c], [], c.bumped, .ok ()⟩

/-- Notes that a turn ends here. -/
def turned (before : Cursor) (operand? : Option Formula) : Descent Unit := fun c =>
  some ⟨[], [⟨before, c, operand?⟩], c, .ok ()⟩

def unexpected (c : Char) : Descent α := do
  fail (.unexpectedCharacter c (← position))

/-- The word that comes next. It has no characters where another token comes next. -/
def takeWord : Descent (List Char) := do
  match ← peek with
  | some (.word text) =>
    bump
    return text
  | _ => return []

/-- A word, which may have no characters. It ends in front of a space or a closing parenthesis, or
    with the line. -/
def readWord : Descent (List Char) := do
  let word ← takeWord
  match ← peek with
  | some .opening => unexpected '('
  | some (.unexpected c) => unexpected c
  | _ => return word

-- Each turn of a loop is one more call of the function, so the fuel bounds turns and nesting at
-- once.
mutual

/-- A formula, behind any number of spaces. -/
def readExpression : Nat → Descent Formula
  | 0 => exhausted
  | fuel + 1 => do
    let before ← current
    match ← peek with
    | none => fail .emptyInput
    | some .spaces =>
      bump
      turned before none
      readExpression fuel
    | some .opening =>
      bump
      let word ← readWord
      let operands ← readOperands fuel []
      return .apply (.ofWord (String.ofList word)) operands
    | some _ =>
      let word ← readWord
      return .symbol (String.ofList word)

/-- The operands up to the closing parenthesis, behind those read so far. -/
def readOperands : Nat → List Formula → Descent (List Formula)
  | 0, _ => exhausted
  | fuel + 1, operands => do
    let before ← current
    match ← peek with
    | none => fail (.unexpectedEnd (← position))
    | some .spaces =>
      bump
      turned before none
      readOperands fuel operands
    | some .closing =>
      bump
      return operands
    | some _ =>
      let f ← readExpression fuel
      turned before (some f)
      readOperands fuel (operands ++ [f])

end

end Descent

end Propositional.Formula
