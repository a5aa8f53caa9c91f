import Propositional.Formula.Semantics
import Propositional.Proofs.Formula.Subformulas

namespace Propositional.Formula

variable {v w : String → Bool}

@[simp] theorem truth_negate (v : String → Bool) (f : Formula) :
    f.negate.truth v = !f.truth v := by
  rw [negate, truth]

/-- The formula that says of a symbol which value it has. -/
def literal (name : String) (value : Bool) : Formula :=
  if value then symbol name else (symbol name).negate

theorem truth_literal_iff {name : String} {value : Bool} :
    (literal name value).truth v = true ↔ v name = value := by
  cases value <;> simp [literal, truth]

theorem truth_all_iff {fs : List Formula} :
    (all fs).truth v = true ↔ ∀ f ∈ fs, f.truth v = true := by
  rw [all, truth, truthAll_eq_all, List.all_eq_true]

/-- The truth of an application depends on nothing but that of its operands. -/
theorem truth_apply_congr {c : Connective} {operands : List Formula}
    (h : ∀ f ∈ operands, f.truth v = f.truth w) :
    (apply c operands).truth v = (apply c operands).truth w := by
  cases c with
  | conj =>
    rw [truth, truth, truthAll_eq_all, truthAll_eq_all, Bool.eq_iff_iff, List.all_eq_true,
      List.all_eq_true]
    exact forall₂_congr fun f hf => by rw [h f hf]
  | disj =>
    rw [truth, truth, truthAny_eq_any, truthAny_eq_any, Bool.eq_iff_iff, List.any_eq_true,
      List.any_eq_true]
    exact exists_congr fun f => and_congr_right fun hf => by rw [h f hf]
  | neg =>
    match operands with
    | [] => rfl
    | f :: fs => rw [truth, truth, h f (by simp)]
  | imp =>
    match operands with
    | [] | [f] => rfl
    | f :: g :: fs => rw [truth, truth, h f (by simp), h g (by simp)]
  | iff =>
    match operands with
    | [] | [f] => rfl
    | f :: g :: fs => rw [truth, truth, h f (by simp), h g (by simp)]
  | xor =>
    match operands with
    | [] | [f] => rfl
    | f :: g :: fs => rw [truth, truth, h f (by simp), h g (by simp)]
  | unknown word => rfl

/-- Symbols that do not occur in a formula have no influence on its truth. -/
theorem truth_congr {f : Formula} (h : ∀ name ∈ f.occurrences, v name = w name) :
    f.truth v = f.truth w := by
  induction f with
  | symbol name => exact h name (List.mem_singleton.mpr rfl)
  | apply c operands ih =>
    apply truth_apply_congr
    intro f hf
    apply ih f hf
    intro name hname
    apply h
    rw [occurrences, occurrencesAll_eq_flatMap]
    exact List.mem_flatMap.mpr ⟨f, hf, hname⟩

end Propositional.Formula
