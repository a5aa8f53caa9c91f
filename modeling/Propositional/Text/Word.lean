namespace Propositional.Text

/-- The characters of a word: the letters and digits of ASCII and the underscore. -/
def isWordChar (c : Char) : Bool :=
  c.isAlphanum || c == '_'

/-- A word is a nonempty run of word characters. -/
def isWord (text : String) : Bool :=
  text != "" && text.toList.all isWordChar

theorem isWord_ofList_iff {word : List Char} :
    isWord (String.ofList word) = true ↔ word ≠ [] ∧ ∀ c ∈ word, isWordChar c = true := by
  simp [isWord]

end Propositional.Text
