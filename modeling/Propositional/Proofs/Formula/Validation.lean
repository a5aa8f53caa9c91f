import Propositional.Formula.Validation
import Propositional.Proofs.Formula.Subformulas

namespace Propositional.Formula

/-- What is wrong with a formula itself, whatever its operands are. -/
def offence? : Formula → Option ValidationError
  | symbol name => if Text.isWord name then none else some (.invalidSymbol name)
  | apply (.unknown word) _ => some (.unknownConnective word)
  | apply connective operands =>
    match connective.arity? with
    | some expected =>
      if operands.length = expected then none
      else some (.arity connective expected operands.length)
    | none => none

theorem check_apply (c : Connective) (operands : List Formula) :
    (apply c operands).check = (offence? (apply c operands)).elim (checkAll operands) .error := by
  cases c <;> simp only [check, offence?, Connective.arity?, Option.elim] <;> split <;> rfl

theorem checkAll_eq {operands : List Formula}
    (h : ∀ f ∈ operands, f.check = (f.subformulas.findSome? offence?).elim (.ok ()) .error) :
    checkAll operands = ((subformulasAll operands).findSome? offence?).elim (.ok ()) .error := by
  induction operands with
  | nil => rfl
  | cons f fs ih =>
    have hf := h f (by simp)
    have hfs := ih fun g hg => h g (by simp [hg])
    rw [checkAll, hf, hfs, subformulasAll, List.findSome?_append]
    cases f.subformulas.findSome? offence? <;> rfl

/-- Checking reports the first subformula that is wrong in itself, where an
    application comes before its operands, and accepts if there is none. -/
theorem check_eq (f : Formula) :
    f.check = (f.subformulas.findSome? offence?).elim (.ok ()) .error := by
  induction f with
  | symbol name =>
    simp only [check, subformulas, List.findSome?_singleton, offence?]
    split <;> rfl
  | apply c operands ih =>
    rw [check_apply, checkAll_eq ih, subformulas, List.findSome?_cons]
    cases offence? (apply c operands) <;> rfl

theorem check_eq_ok_iff {f : Formula} :
    f.check = .ok () ↔ ∀ g ∈ f.subformulas, g.offence? = none := by
  rw [check_eq, ← List.findSome?_eq_none_iff]
  cases f.subformulas.findSome? offence? <;> simp

theorem check_eq_error_iff {f : Formula} {e : ValidationError} :
    f.check = .error e ↔ f.subformulas.findSome? offence? = some e := by
  rw [check_eq]
  cases f.subformulas.findSome? offence? <;> simp

theorem eq_symbol_of_offence? {f : Formula} {name : String}
    (h : f.offence? = some (.invalidSymbol name)) :
    f = symbol name ∧ ¬ Text.isWord name = true := by
  unfold offence? at h
  split at h
  · split at h
    · cases h
    · rename_i hword
      obtain rfl := ValidationError.invalidSymbol.inj (Option.some.inj h)
      exact ⟨rfl, hword⟩
  · cases h
  · split at h
    · split at h <;> cases h
    · cases h

theorem check_eq_ok_of_mem {f g : Formula} (hf : f.check = .ok ()) (hg : g ∈ f.subformulas) :
    g.offence? = none :=
  check_eq_ok_iff.mp hf g hg

/-- An application that is right in itself is well formed if its operands are. -/
theorem check_apply_eq_ok_iff {c : Connective} {operands : List Formula}
    (hc : offence? (apply c operands) = none) :
    (apply c operands).check = .ok () ↔ ∀ f ∈ operands, f.check = .ok () := by
  simp only [check_eq_ok_iff, forall_mem_subformulas_apply_iff]
  exact and_iff_right hc

theorem check_all_eq_ok_iff {fs : List Formula} :
    (all fs).check = .ok () ↔ ∀ f ∈ fs, f.check = .ok () :=
  check_apply_eq_ok_iff rfl

/-- Negation with its one operand adds no fault of its own. -/
@[simp] theorem check_negate (f : Formula) : f.negate.check = f.check := by
  rw [negate, check_apply]
  simp only [offence?, Connective.arity?, List.length_singleton, if_true, Option.elim_none,
    checkAll]
  cases f.check <;> rfl

theorem isWord_of_check {f : Formula} {name : String} (hf : f.check = .ok ())
    (hname : symbol name ∈ f.subformulas) : Text.isWord name = true := by
  have h := check_eq_ok_of_mem hf hname
  simp only [offence?] at h
  split at h
  · assumption
  · cases h

end Propositional.Formula
