import Propositional.Formula.Reader

namespace Propositional.Formula

open Reader

/-- The pieces that a line is cut into. A word is held as its characters. -/
inductive Token
  | word (text : List Char)
  | opening
  | closing
  | spaces
  | unexpected (c : Char)

/-- The longest token at the start of a text, and what stands behind it. No token holds a line
    feed. -/
def nextToken : List Char → Option (Token × List Char)
  | [] => none
  | c :: rest =>
    if c = ' ' then some (.spaces, rest.dropWhile (· == ' '))
    else if Text.isWordChar c then
      some (.word (c :: rest.takeWhile Text.isWordChar), rest.dropWhile Text.isWordChar)
    else if c = '(' then some (.opening, rest)
    else if c = ')' then some (.closing, rest)
    else if c = '\n' then none
    else some (.unexpected c, rest)

/-- The text behind some bytes, if these are whole characters. -/
def sliceFrom : List Char → Nat → Option (List Char)
  | text, 0 => some text
  | [], _ + 1 => none
  | c :: rest, bytes + 1 =>
    if c.utf8Size ≤ bytes + 1 then sliceFrom rest (bytes + 1 - c.utf8Size) else none

/-- The token that a text goes on with, and what stands behind it. A character that is in no token
    is a piece of its own, cut off by its size. -/
def lex (text : List Char) : Option (Token × List Char) :=
  match nextToken text with
  | some lexed => some lexed
  | none => do
    let c ← text.head?
    let rest ← sliceFrom text c.utf8Size
    return (.unexpected c, rest)

/-- A place in a line: the text that remains there, and the token it goes on with, if that has been
    looked up already. -/
structure Cursor where
  line : List Char
  remaining : List Char
  peeked : Option (Token × List Char)

namespace Cursor

def ofLine (line : List Char) : Cursor := ⟨line, line, none⟩

/-- The number of bytes that remain. -/
def left (c : Cursor) : Nat := byteCount c.remaining

def position (c : Cursor) : Nat := byteCount c.line - c.left

/-- Looking at the next token keeps it. -/
def filled (c : Cursor) : Cursor :=
  match c.peeked with
  | none => { c with peeked := lex c.remaining }
  | some _ => c

/-- The next token is the one that is kept or, if none is, looked up. -/
def bumped (c : Cursor) : Cursor :=
  match c.filled.peeked with
  | none => ⟨c.line, c.remaining, none⟩
  | some (_, rest) => ⟨c.line, rest, none⟩

end Cursor

end Propositional.Formula
