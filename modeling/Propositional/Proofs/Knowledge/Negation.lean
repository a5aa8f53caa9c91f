import Propositional.Knowledge.Basic
import Propositional.Proofs.Formula.Validation
import Propositional.Proofs.TruthTable.Negation

namespace Propositional

/-- The verdict on the opposite statement. -/
def Verdict.opposite : Verdict → Verdict
  | definitelyTrue => definitelyFalse
  | definitelyFalse => definitelyTrue
  | undetermined => undetermined
  | contradictory => contradictory

namespace Decision

/-- The decision on the opposite statement. -/
def opposite (d : Decision) : Decision :=
  ⟨d.fails, d.holds⟩

theorem verdict_opposite (d : Decision) : d.opposite.verdict = d.verdict.opposite := by
  rcases d with ⟨_ | _, _ | _⟩ <;> rfl

/-- Of the two entailments that decide a statement and the two that decide its
    negation, one is the same and the other is of a double negation. They are put in
    the other order, which cannot be seen: if both fail, they do so for one reason. -/
theorem reach_negate (base s : Formula) (fixed : Assignment) :
    reach base s.negate fixed = (reach base s fixed).map opposite := by
  rw [reach, reach, entails_negate_negate]
  cases hholds : entails base s fixed with
  | ok holds => cases entails base s.negate fixed <;> rfl
  | error e =>
    cases hfails : entails base s.negate fixed with
    | ok fails => rfl
    | error d =>
      rw [error_eq_of_entails_negate hholds hfails]
      rfl

end Decision

namespace Knowledge

theorem judge_negate_eq (k : Knowledge) (s : Formula) :
    k.judge s.negate = (k.judge s).map Decision.opposite := by
  rw [judge, judge, Formula.check_negate, Decision.reach_negate]
  cases s.negate.check with
  | error cause => rfl
  | ok _ => cases Decision.reach k.base s k.fixed <;> rfl

/-- The verdict on a negation is the opposite one, and there is none for the same
    reason for which there is none on the statement itself. Neither the knowledge nor
    the statement has to be well formed. -/
theorem judge_negate (k : Knowledge) (s : Formula) :
    (k.judge s.negate).map Decision.verdict = (k.judge s).map (fun d => d.verdict.opposite) ∧
    ∀ e, k.judge s.negate = .error e ↔ k.judge s = .error e := by
  rw [judge_negate_eq]
  cases k.judge s with
  | error cause => exact ⟨rfl, fun e => Iff.rfl⟩
  | ok d => exact ⟨congrArg Except.ok d.verdict_opposite, fun e => ⟨nofun, nofun⟩⟩

end Knowledge

end Propositional
