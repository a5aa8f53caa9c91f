import Propositional.Proofs.Formula.Reader

namespace Propositional.Formula

mutual

/-- A text denotes a formula as far as a rest, the last argument. A symbol is a
    word with characters, behind which the text ends or a space or a closing
    parenthesis stands. An application is an opening parenthesis, a word, which
    may have no characters, and the operands. -/
inductive Denotes : List Char → Formula → List Char → Prop
  | symbol {word rest : List Char} (hne : word ≠ [])
      (hword : ∀ c ∈ word, Text.isWordChar c = true)
      (hrest : ∀ c ∈ rest.head?, Reader.EndsWord c) :
      Denotes (word ++ rest) (.symbol (String.ofList word)) rest
  | apply {word text rest : List Char} {operands : List Formula}
      (hword : ∀ c ∈ word, Text.isWordChar c = true)
      (hends : ∃ c ∈ text.head?, Reader.EndsWord c) (hoperands : DenotesAll text operands rest) :
      Denotes ('(' :: (word ++ text)) (.apply (.ofWord (String.ofList word)) operands) rest

/-- A text denotes operands as far as the rest behind the closing parenthesis. Any
    number of spaces, also none, may stand in front of each operand and of the
    parenthesis. -/
inductive DenotesAll : List Char → List Formula → List Char → Prop
  | close (spaces : Nat) (rest : List Char) :
      DenotesAll (List.replicate spaces ' ' ++ ')' :: rest) [] rest
  | operand (spaces : Nat) {text later rest : List Char} {f : Formula} {fs : List Formula}
      (hf : Denotes text f later) (hfs : DenotesAll later fs rest) :
      DenotesAll (List.replicate spaces ' ' ++ text) (f :: fs) rest

end

mutual

theorem Denotes.suffix {text rest : List Char} {f : Formula} :
    Denotes text f rest → rest <:+ text
  | .symbol _ _ _ => List.suffix_append _ _
  | .apply _ _ hoperands =>
    (hoperands.suffix.trans (List.suffix_append _ _)).trans (List.suffix_cons '(' _)

theorem DenotesAll.suffix {text rest : List Char} {fs : List Formula} :
    DenotesAll text fs rest → rest <:+ text
  | .close _ _ => (List.suffix_cons ')' _).trans (List.suffix_append _ _)
  | .operand _ hf hfs => (hfs.suffix.trans hf.suffix).trans (List.suffix_append _ _)

end

/-- A text denotes a symbol where it begins with the name, which is a word. -/
theorem Denotes.eq_append_of_symbol {text rest : List Char} {name : String}
    (h : Denotes text (.symbol name) rest) :
    text = name.toList ++ rest ∧ Text.isWord name = true := by
  cases h with
  | symbol hne hword _ =>
    exact ⟨by rw [String.toList_ofList], Text.isWord_ofList_iff.mpr ⟨hne, hword⟩⟩

theorem DenotesAll.cons_space {text rest : List Char} {fs : List Formula}
    (h : DenotesAll text fs rest) : DenotesAll (' ' :: text) fs rest := by
  cases h with
  | close spaces rest => exact .close (spaces + 1) rest
  | operand spaces hf hfs => exact .operand (spaces + 1) hf hfs

theorem DenotesAll.replicate_append {text rest : List Char} {fs : List Formula}
    (h : DenotesAll text fs rest) (spaces : Nat) :
    DenotesAll (List.replicate spaces ' ' ++ text) fs rest := by
  induction spaces with
  | zero => exact h
  | succ spaces ih => exact ih.cons_space

/-- What the formula at the start of a line is, and the rest behind it: behind any
    number of spaces the line goes on with a text that denotes the formula. A line
    that goes on with a closing parenthesis instead has the symbol without
    characters in front of that. -/
def LineDenotes (line : List Char) (f : Formula) (rest : List Char) : Prop :=
  ∃ spaces text, line = List.replicate spaces ' ' ++ (text ++ rest) ∧
    (Denotes (text ++ rest) f rest ∨ text = [] ∧ rest.head? = some ')' ∧ f = .symbol "")

theorem Denotes.lineDenotes {text rest : List Char} {f : Formula} (h : Denotes text f rest) :
    LineDenotes text f rest := by
  obtain ⟨front, rfl⟩ := h.suffix
  exact ⟨0, front, rfl, .inl h⟩

theorem lineDenotes_close (cs : List Char) : LineDenotes (')' :: cs) (.symbol "") (')' :: cs) :=
  ⟨0, [], rfl, .inr ⟨rfl, rfl, rfl⟩⟩

theorem LineDenotes.cons_space {line rest : List Char} {f : Formula}
    (h : LineDenotes line f rest) : LineDenotes (' ' :: line) f rest := by
  obtain ⟨spaces, text, rfl, hdenotes⟩ := h
  exact ⟨spaces + 1, text, rfl, hdenotes⟩

theorem LineDenotes.replicate_append {line rest : List Char} {f : Formula}
    (h : LineDenotes line f rest) (spaces : Nat) :
    LineDenotes (List.replicate spaces ' ' ++ line) f rest := by
  induction spaces with
  | zero => exact h
  | succ spaces ih => exact ih.cons_space

end Propositional.Formula
