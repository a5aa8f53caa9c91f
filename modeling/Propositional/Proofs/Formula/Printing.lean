import Propositional.Formula.Printer
import Propositional.Proofs.Formula.Spelling

namespace Propositional.Formula

theorem mem_textAll {fs : List Formula} {c : Char} (hc : c ∈ (textAll fs).toList) :
    c = ' ' ∨ ∃ f ∈ fs, c ∈ f.text.toList := by
  induction fs with
  | nil => simp [textAll] at hc
  | cons f fs ih =>
    simp only [textAll, String.toList_append, List.mem_append] at hc
    rcases hc with (hc | hc) | hc
    · exact .inl (by simpa using hc)
    · exact .inr ⟨f, by simp, hc⟩
    · rcases ih hc with hc | ⟨g, hg, hc⟩
      · exact .inl hc
      · exact .inr ⟨g, by simp [hg], hc⟩

/-- A formula that has a spelling is printed with word characters, spaces and parentheses. -/
theorem WellSpelled.mem_text {f : Formula} (hf : f.WellSpelled) {c : Char}
    (hc : c ∈ f.text.toList) : Text.isWordChar c = true ∨ c = ' ' ∨ c = '(' ∨ c = ')' := by
  induction f with
  | symbol name =>
    have hname := wellSpelled_symbol_iff.mp hf
    rw [← name.ofList_toList, Text.isWord_ofList_iff] at hname
    exact .inl (hname.2 c hc)
  | apply connective operands ih =>
    obtain ⟨hspelled, hoperands⟩ := wellSpelled_apply_iff.mp hf
    simp only [text, String.toList_append, List.mem_append] at hc
    rcases hc with ((hc | hc) | hc) | hc
    · exact .inr (.inr (.inl (by simpa using hc)))
    · exact .inl ((isSpelled_apply_iff.mp hspelled).1 c hc)
    · rcases mem_textAll hc with hc | ⟨g, hg, hc⟩
      · exact .inr (.inl hc)
      · exact ih g hg (hoperands g hg) hc
    · exact .inr (.inr (.inr (by simpa using hc)))

theorem WellSpelled.ne_terminator {f : Formula} (hf : f.WellSpelled) {c : Char}
    (hc : c ∈ f.text.toList) : c ≠ '\r' ∧ c ≠ '\n' := by
  have hmem := hf.mem_text hc
  constructor <;> rintro rfl <;> revert hmem <;> decide

/-- Operands that are separated by line feeds stand on a line each. -/
theorem toList_renderAll_lineFeed (fs : List Formula) :
    (renderAll "\n" fs).toList =
      (fs.map fun f => ' ' :: f.text.toList).flatMap (· ++ ['\n']) := by
  induction fs with
  | nil => rfl
  | cons f fs ih => simp [renderAll, ih]

end Propositional.Formula
