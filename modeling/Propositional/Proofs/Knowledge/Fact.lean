import Propositional.Knowledge.Fact
import Propositional.Proofs.Formula.Reading
import Propositional.Proofs.Formula.Truth

namespace Propositional.Knowledge

variable {line : String} {r : Reading}

/-- A line whose one token is a word is read as that symbol. -/
theorem formula_eq_symbol {word : List Char} (hruns : Text.runs line.toList = [word])
    (hword : ∀ c ∈ word, Text.isWordChar c = true) (hread : Formula.read line = .ok r) :
    r.formula = .symbol (String.ofList word) := by
  obtain ⟨blanks, rest, hline, hblanks, hne, _, hrest, _⟩ :=
    Text.exists_eq_append_of_runs_eq_cons hruns
  rw [Formula.read_eq_ok_iff, hline] at hread
  obtain ⟨later, hread⟩ := Formula.Reader.exists_run_eq_ok_of_blanks hblanks hread
  rw [Formula.Reader.run_gap_append hne hword] at hread
  have hout := Formula.Reader.eq_of_run_symbol_eq_ok hrest hread
  rw [List.reverse_reverse] at hout
  exact congrArg Prod.fst hout

/-- A line of two tokens, of which the first is `not` behind one character and the second a word
    in front of one, is read as the negation of that word, if these characters are parentheses.
    If they are not, then the first character is a closing parenthesis or belongs to a word; the
    second token is left over. -/
theorem formula_eq_negate_or {word : List Char} {opening closing : Char}
    (hruns : Text.runs line.toList = [[opening, 'n', 'o', 't'], word ++ [closing]])
    (hne : word ≠ []) (hword : ∀ c ∈ word, Text.isWordChar c = true)
    (hread : Formula.read line = .ok r) :
    r.formula = (Formula.symbol (String.ofList word)).negate ∨
      (∃ d ∈ r.rest, d ≠ ' ') ∧ (r.formula = .symbol "" ∨
        Text.isWordChar opening = true ∧
          r.formula = .symbol (String.ofList [opening, 'n', 'o', 't'])) := by
  obtain ⟨blanks, behind, hline, hblanks, _, hfirst, hbehind, hruns⟩ :=
    Text.exists_eq_append_of_runs_eq_cons hruns
  obtain ⟨gap, rest, rfl, hgap, _, hsecond, _, hruns⟩ :=
    Text.exists_eq_append_of_runs_eq_cons hruns
  have hrest := Text.isBlank_of_runs_eq_nil hruns
  have hclosing : closing ≠ ' ' := by
    have hblank := hsecond closing (by simp)
    rintro rfl
    cases hblank
  rw [Formula.read_eq_ok_iff, hline] at hread
  obtain ⟨position, hread⟩ := Formula.Reader.exists_run_eq_ok_of_blanks hblanks hread
  have hnot : ∀ c ∈ ['n', 'o', 't'], Text.isWordChar c = true :=
    List.all_eq_true.mp rfl
  rcases Formula.Reader.cases_of_run_eq_ok (hfirst opening (by simp)) hnot hbehind hread with
    rfl | ⟨rfl, hout⟩ | ⟨hopening, hout⟩
  · rw [List.cons_append, Formula.Reader.run_cons_of_next (t := ⟨[], .connective []⟩) rfl,
      Formula.Reader.run_connective_append hnot] at hread
    have hsome : gap ++ (word ++ [closing] ++ rest) ≠ [] := by simp
    have hread := Formula.Reader.run_connective_eq_ok_of_blank hbehind hsome hread
    obtain ⟨later, hread⟩ := Formula.Reader.exists_run_eq_ok_of_blanks hgap hread
    rw [List.append_assoc] at hread
    exact .inl (congrArg Prod.fst (Formula.Reader.eq_of_run_operand_eq_ok hne hword hrest hread))
  · obtain ⟨hformula, hbehind⟩ := Prod.mk.inj hout
    exact .inr ⟨⟨closing, by simp [hbehind], hclosing⟩, .inl hformula⟩
  · obtain ⟨hformula, hbehind⟩ := Prod.mk.inj hout
    exact .inr ⟨⟨closing, by simp [hbehind], hclosing⟩, .inr ⟨hopening, hformula⟩⟩

/-- What a line fixes for a word is what the line states, unless the line begins with another
    symbol and goes on behind it. The two need not fit for other names. -/
theorem formula_eq_literal_or {name : String} {value : Bool}
    (hfact : fact? line = some (name, value)) (hname : Text.isWord name = true)
    (hread : Formula.read line = .ok r) :
    r.formula = .literal name value ∨
      value = false ∧ (∃ d ∈ r.rest, d ≠ ' ') ∧ (r.formula = .symbol "" ∨
        ∃ c, Text.isWordChar c = true ∧ r.formula = .symbol (String.ofList [c, 'n', 'o', 't'])) := by
  rw [fact?, Text.tokens_eq_map_runs] at hfact
  match hruns : Text.runs line.toList with
  | [] =>
    rw [hruns] at hfact
    cases hfact
  | [word] =>
    rw [hruns] at hfact
    obtain ⟨rfl, rfl⟩ := Prod.mk.inj (Option.some.inj hfact)
    exact .inl (formula_eq_symbol hruns (Text.isWord_ofList_iff.mp hname).2 hread)
  | [first, second] =>
    rw [hruns] at hfact
    simp only [List.map_cons, List.map_nil, String.toList_ofList] at hfact
    split at hfact
    · rename_i hnot
      obtain ⟨rfl, rfl⟩ := Prod.mk.inj (Option.some.inj hfact)
      obtain ⟨hne, hword⟩ := Text.isWord_ofList_iff.mp hname
      obtain ⟨opening, rfl⟩ : ∃ opening, first = [opening, 'n', 'o', 't'] := by
        cases first with
        | nil => cases hnot
        | cons opening rest => exact ⟨opening, by rw [← hnot, List.tail_cons]⟩
      have hsecond : second ≠ [] := by rintro rfl; exact hne rfl
      rw [← List.dropLast_concat_getLast hsecond] at hruns
      refine (formula_eq_negate_or hruns hne hword hread).imp_right ?_
      rintro ⟨hbehind, hformula⟩
      exact ⟨rfl, hbehind, hformula.imp_right fun hsymbol => ⟨opening, hsymbol⟩⟩
    · cases hfact
  | first :: second :: third :: others =>
    rw [hruns] at hfact
    cases hfact

/-- What a line that is read in full fixes for a word is what it states. -/
theorem formula_eq_literal {name : String} {value : Bool} (hfact : fact? line = some (name, value))
    (hname : Text.isWord name = true) (hread : Formula.read line = .ok r)
    (htrailing : r.trailing? = none) : r.formula = .literal name value := by
  refine (formula_eq_literal_or hfact hname hread).resolve_right ?_
  rintro ⟨_, ⟨d, hd, hne⟩, _⟩
  exact hne (Reading.trailing?_eq_none_iff.mp htrailing d hd)

example : fact? "(not (and))" = some ("(and)", false) := by decide +kernel

end Propositional.Knowledge
