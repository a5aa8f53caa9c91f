import Propositional.Formula.Evaluation
import Propositional.Formula.Symbols
import Propositional.Proofs.Assignment
import Propositional.Proofs.Formula.Truth

namespace Propositional

namespace Formula

variable {a : Assignment} {v : String → Bool} {fs : List Formula}

theorem occurrences_literal (name : String) (value : Bool) :
    (literal name value).occurrences = [name] := by
  cases value <;> rfl

theorem evaluate_literal (h : a.Agrees v) {name : String} (hbound : (a.get? name).isSome = true)
    (value : Bool) : (literal name value).evaluate a = .ok ((literal name value).truth v) := by
  have hsymbol : (symbol name).evaluate a = .ok (v name) := by
    rw [evaluate, h.get?_eq hbound]
  cases value with
  | true => exact hsymbol
  | false =>
    change (symbol name).negate.evaluate a = .ok ((symbol name).negate.truth v)
    rw [negate, evaluate, hsymbol]
    rfl

theorem evaluateAll_singleton (a : Assignment) (f : Formula) :
    evaluateAll a [f] = f.evaluate a := by
  rw [evaluateAll]
  cases f.evaluate a with
  | error e => rfl
  | ok value => cases value <;> rfl

/-- Formulas in front that have values let those behind them be evaluated only if they
    are all true. -/
theorem evaluateAll_append (h : ∀ f ∈ fs, f.evaluate a = .ok (f.truth v)) (gs : List Formula) :
    evaluateAll a (fs ++ gs) = if truthAll v fs then evaluateAll a gs else .ok false := by
  induction fs with
  | nil => rfl
  | cons f fs ih =>
    have hfs := ih fun g hg => h g (by simp [hg])
    rw [List.cons_append, evaluateAll, h f (by simp), hfs, truthAll]
    cases f.truth v <;> rfl

end Formula

namespace Assignment

/-- Some formulas are those that state the values of an assignment, in any order: the
    symbol itself for true, its negation for false. -/
def StatedBy (a : Assignment) (fs : List Formula) : Prop :=
  ∀ f, f ∈ fs ↔ ∃ name value, a.get? name = some value ∧ f = .literal name value

variable {a : Assignment} {fs : List Formula}

theorem statedBy_of_perm
    (h : fs.Perm (a.entries.map fun entry => Formula.literal entry.1 entry.2)) : a.StatedBy fs := by
  intro f
  rw [h.mem_iff, List.mem_map]
  constructor
  · rintro ⟨⟨name, value⟩, hentry, rfl⟩
    exact ⟨name, value, get?_eq_some_iff.mpr hentry, rfl⟩
  · rintro ⟨name, value, hget, rfl⟩
    exact ⟨(name, value), get?_eq_some_iff.mp hget, rfl⟩

/-- They are true together exactly under the valuations that agree with the assignment. -/
theorem StatedBy.truthAll_iff (h : a.StatedBy fs) {v : String → Bool} :
    Formula.truthAll v fs = true ↔ a.Agrees v := by
  rw [Formula.truthAll_eq_all, List.all_eq_true]
  constructor
  · intro hall name value hget
    exact Formula.truth_literal_iff.mp (hall _ ((h _).mpr ⟨name, value, hget, rfl⟩))
  · intro hagrees f hf
    obtain ⟨name, value, hget, rfl⟩ := (h f).mp hf
    exact Formula.truth_literal_iff.mpr (hagrees name value hget)

/-- The symbols of these formulas are those that have a value. -/
theorem StatedBy.mem_occurrences_iff (h : a.StatedBy fs) {name : String} :
    name ∈ Formula.occurrencesAll fs ↔ (a.get? name).isSome = true := by
  rw [Formula.occurrencesAll_eq_flatMap, List.mem_flatMap, Option.isSome_iff_exists]
  constructor
  · rintro ⟨f, hf, hname⟩
    obtain ⟨other, value, hget, rfl⟩ := (h f).mp hf
    rw [Formula.occurrences_literal, List.mem_singleton] at hname
    exact ⟨value, hname ▸ hget⟩
  · rintro ⟨value, hget⟩
    refine ⟨_, (h _).mpr ⟨name, value, hget, rfl⟩, ?_⟩
    rw [Formula.occurrences_literal]
    exact List.mem_singleton.mpr rfl

/-- Behind them a formula is evaluated only under assignments that agree with the values
    stated. Elsewhere the conjunction is false, also where the formula would be an error. -/
theorem StatedBy.evaluateAll_eq (h : a.StatedBy fs) {m : Assignment} {v : String → Bool}
    (hbound : ∀ name, (a.get? name).isSome = true → (m.get? name).isSome = true)
    (hv : m.Agrees v) (f : Formula) :
    Formula.evaluateAll m (fs ++ [f]) =
      if Formula.truthAll v fs then f.evaluate m else .ok false := by
  rw [Formula.evaluateAll_append (v := v), Formula.evaluateAll_singleton]
  intro g hg
  obtain ⟨name, value, hget, rfl⟩ := (h g).mp hg
  exact Formula.evaluate_literal hv (hbound name (by rw [hget]; rfl)) value

end Assignment

end Propositional
