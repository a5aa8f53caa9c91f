namespace Propositional.Text

/-- The characters with the Unicode property White_Space. -/
def isBlank (c : Char) : Bool :=
  let n := c.toNat
  (9 ≤ n && n ≤ 13) || (0x2000 ≤ n && n ≤ 0x200a) ||
    [0x20, 0x85, 0xa0, 0x1680, 0x2028, 0x2029, 0x202f, 0x205f, 0x3000].contains n

/-- The maximal runs of characters that are not blank. -/
def tokens (text : String) : List String :=
  ((text.toList.splitOnP isBlank).filter (· != [])).map String.ofList

end Propositional.Text
