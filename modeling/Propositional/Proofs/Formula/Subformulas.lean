import Propositional.Formula.Symbols

namespace Propositional.Formula

mutual

/-- The formulas that a formula is made of, itself first and its operands from
    left to right. -/
def subformulas : Formula → List Formula
  | symbol name => [symbol name]
  | apply connective operands => apply connective operands :: subformulasAll operands

def subformulasAll : List Formula → List Formula
  | [] => []
  | f :: fs => subformulas f ++ subformulasAll fs

end

theorem subformulasAll_eq_flatMap (fs : List Formula) :
    subformulasAll fs = fs.flatMap subformulas := by
  induction fs with
  | nil => rfl
  | cons f fs ih => simp only [subformulasAll, List.flatMap_cons, ih]

@[simp] theorem mem_subformulas_symbol {g : Formula} {name : String} :
    g ∈ (symbol name).subformulas ↔ g = symbol name := by
  simp [subformulas]

@[simp] theorem mem_subformulas_apply {g : Formula} {c : Connective} {operands : List Formula} :
    g ∈ (apply c operands).subformulas ↔
      g = apply c operands ∨ ∃ f ∈ operands, g ∈ f.subformulas := by
  simp [subformulas, subformulasAll_eq_flatMap]

/-- What holds of an application and throughout its operands holds throughout it. -/
theorem forall_mem_subformulas_apply_iff {p : Formula → Prop} {c : Connective}
    {operands : List Formula} :
    (∀ g ∈ (apply c operands).subformulas, p g) ↔
      p (apply c operands) ∧ ∀ f ∈ operands, ∀ g ∈ f.subformulas, p g := by
  simp only [mem_subformulas_apply]
  constructor
  · intro h
    exact ⟨h _ (.inl rfl), fun f hf g hg => h g (.inr ⟨f, hf, hg⟩)⟩
  · rintro ⟨hself, hoperands⟩ g (rfl | ⟨f, hf, hg⟩)
    · exact hself
    · exact hoperands f hf g hg

theorem mem_subformulas_negate {f g : Formula} :
    g ∈ f.negate.subformulas ↔ g = f.negate ∨ g ∈ f.subformulas := by
  simp [negate]

/-- A name occurs in a formula exactly where it is the symbol of a subformula. -/
theorem mem_occurrences_iff {f : Formula} {name : String} :
    name ∈ f.occurrences ↔ symbol name ∈ f.subformulas := by
  induction f with
  | symbol other => simp [occurrences]
  | apply c operands ih =>
    simp only [occurrences, occurrencesAll_eq_flatMap, List.mem_flatMap, mem_subformulas_apply,
      reduceCtorEq, false_or]
    constructor
    · rintro ⟨f, hf, hname⟩
      exact ⟨f, hf, (ih f hf).mp hname⟩
    · rintro ⟨f, hf, hname⟩
      exact ⟨f, hf, (ih f hf).mpr hname⟩

/-- An exclusive or that lacks one or both of the operands it compares. -/
def isShortXor : Formula → Bool
  | apply .xor operands => operands.length < 2
  | _ => false

theorem isShortXor_iff {f : Formula} :
    f.isShortXor = true ↔ ∃ operands, f = apply .xor operands ∧ operands.length < 2 := by
  constructor
  · intro h
    unfold isShortXor at h
    split at h
    · exact ⟨_, rfl, by simpa using h⟩
    · cases h
  · rintro ⟨operands, rfl, h⟩
    simpa [isShortXor] using h

/-- Every exclusive or in a formula has at least two operands. -/
def XorsPaired (f : Formula) : Prop :=
  ∀ g ∈ f.subformulas, g.isShortXor = false

instance (f : Formula) : Decidable f.XorsPaired :=
  inferInstanceAs (Decidable (∀ g ∈ f.subformulas, g.isShortXor = false))

/-- An application of another connective adds nothing to what its operands need. -/
theorem xorsPaired_apply_iff {c : Connective} {operands : List Formula} (hc : c ≠ .xor) :
    (apply c operands).XorsPaired ↔ ∀ f ∈ operands, f.XorsPaired := by
  have hself : (apply c operands).isShortXor = false := by
    cases c <;> first | rfl | exact absurd rfl hc
  rw [XorsPaired, forall_mem_subformulas_apply_iff]
  exact and_iff_right hself

theorem xorsPaired_negate_iff {f : Formula} : f.negate.XorsPaired ↔ f.XorsPaired := by
  simp [negate, xorsPaired_apply_iff]

end Propositional.Formula
