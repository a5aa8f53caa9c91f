import Propositional.Proofs.Formula.Locality
import Propositional.Proofs.Formula.Validation

namespace Propositional

/-- The operands of a connective that may matter for its value: the first of a negation, the first
    two of an implication, an equivalence and an exclusive or, and otherwise all. -/
def Connective.used (c : Connective) (operands : List Formula) : List Formula :=
  match c with
  | .neg => operands.take 1
  | .imp | .iff | .xor => operands.take 2
  | .conj | .disj | .unknown _ => operands

namespace Formula

mutual

/-- A formula in which no connective has operands that do not matter for its value. -/
def trim : Formula → Formula
  | symbol name => symbol name
  | apply connective operands => apply connective (connective.used (trimAll operands))

def trimAll : List Formula → List Formula
  | [] => []
  | f :: fs => trim f :: trimAll fs

end

theorem trimAll_eq_map (fs : List Formula) : trimAll fs = fs.map trim := by
  induction fs with
  | nil => rfl
  | cons f fs ih => rw [trimAll, ih, List.map_cons]

theorem trim_apply (c : Connective) (operands : List Formula) :
    (apply c operands).trim = apply c (c.used (operands.map trim)) := by
  rw [trim, trimAll_eq_map]

theorem mem_of_mem_used {c : Connective} {operands : List Formula} {f : Formula}
    (hf : f ∈ c.used operands) : f ∈ operands := by
  cases c with
  | conj | disj | unknown => exact hf
  | neg | imp | iff | xor => exact List.mem_of_mem_take hf

/-- The operands of a trimmed application are trimmed operands of the application. -/
theorem exists_of_mem_used_map {c : Connective} {operands : List Formula} {g : Formula}
    (hg : g ∈ c.used (operands.map trim)) : ∃ f ∈ operands, f.trim = g :=
  List.mem_map.mp (mem_of_mem_used hg)

/-- Evaluation does not look at operands that do not matter, and counts them no more than
    needed: an application that lacks an operand has none to spare. -/
theorem evaluate_apply_used (a : Assignment) (c : Connective) (operands : List Formula) :
    (apply c (c.used operands)).evaluate a = (apply c operands).evaluate a := by
  cases c with
  | conj | disj | unknown => rfl
  | neg =>
    cases operands with
    | nil => rfl
    | cons f fs => simp only [Connective.used, List.take_succ_cons, List.take_zero, evaluate]
  | imp | iff | xor =>
    cases operands with
    | nil => rfl
    | cons f fs =>
      cases fs with
      | nil => rfl
      | cons g fs => simp only [Connective.used, List.take_succ_cons, List.take_zero, evaluate]

theorem evaluate_trim (f : Formula) (a : Assignment) : f.trim.evaluate a = f.evaluate a := by
  induction f with
  | symbol name => rfl
  | apply c operands ih =>
    rw [trim_apply, evaluate_apply_used]
    exact evaluate_apply_map_congr ih

theorem occurrences_trim_subset (f : Formula) : f.trim.occurrences ⊆ f.occurrences := by
  induction f with
  | symbol name => exact List.Subset.refl _
  | apply c operands ih =>
    intro name hname
    rw [trim_apply, occurrences, occurrencesAll_eq_flatMap, List.mem_flatMap] at hname
    obtain ⟨g, hg, hname⟩ := hname
    obtain ⟨f, hf, rfl⟩ := exists_of_mem_used_map hg
    rw [occurrences, occurrencesAll_eq_flatMap, List.mem_flatMap]
    exact ⟨f, hf, ih f hf hname⟩

/-- What holds throughout a formula holds throughout the trimmed one, if it is not lost when an
    application is trimmed. -/
theorem forall_mem_subformulas_trim {p : Formula → Prop} (hp : ∀ g, p g → p g.trim) {f : Formula}
    (h : ∀ g ∈ f.subformulas, p g) : ∀ g ∈ f.trim.subformulas, p g := by
  induction f with
  | symbol name => exact h
  | apply c operands ih =>
    obtain ⟨hself, hoperands⟩ := forall_mem_subformulas_apply_iff.mp h
    have htrimmed := hp _ hself
    rw [trim_apply] at htrimmed ⊢
    refine forall_mem_subformulas_apply_iff.mpr ⟨htrimmed, fun g hg => ?_⟩
    obtain ⟨f, hf, rfl⟩ := exists_of_mem_used_map hg
    exact ih f hf (hoperands f hf)

theorem offence?_trim_eq_none {g : Formula} (hg : g.offence? = none) : g.trim.offence? = none := by
  cases g with
  | symbol name => exact hg
  | apply c operands =>
    rw [trim_apply]
    cases c with
    | conj | disj | xor => rfl
    | neg =>
      have hlength : operands.length = 1 := by simpa [offence?, Connective.arity?] using hg
      simp [offence?, Connective.arity?, Connective.used, hlength]
    | imp | iff =>
      have hlength : operands.length = 2 := by simpa [offence?, Connective.arity?] using hg
      simp [offence?, Connective.arity?, Connective.used, hlength]
    | unknown word => cases hg

theorem isShortXor_trim (g : Formula) : g.trim.isShortXor = g.isShortXor := by
  cases g with
  | symbol name => rfl
  | apply c operands =>
    rw [trim_apply]
    cases c with
    | xor =>
      have hmin : min 2 operands.length < 2 ↔ operands.length < 2 := by omega
      simp [isShortXor, Connective.used, hmin]
    | conj | disj | neg | imp | iff | unknown => rfl

/-- Trimming keeps a formula well formed. The converse fails, since it also mends a connective of
    fixed arity that has too many operands. -/
theorem check_trim {f : Formula} (hf : f.check = .ok ()) : f.trim.check = .ok () := by
  rw [check_eq_ok_iff] at hf ⊢
  exact forall_mem_subformulas_trim (p := fun g => g.offence? = none)
    (fun _ => offence?_trim_eq_none) hf

theorem XorsPaired.trim {f : Formula} (hf : f.XorsPaired) : f.trim.XorsPaired :=
  forall_mem_subformulas_trim (fun g hg => (isShortXor_trim g).trans hg) hf

end Formula

end Propositional
