import Propositional.Knowledge.Basic
import Propositional.Proofs.Except
import Propositional.Proofs.Formula.Truth
import Propositional.Proofs.TruthTable.Entailment

namespace Propositional

namespace Decision

theorem reach_eq_ok {base statement : Formula} {fixed : Assignment} {holds fails : Bool}
    (hholds : entails base statement fixed = .ok holds)
    (hfails : entails base statement.negate fixed = .ok fails) :
    reach base statement fixed = .ok ⟨holds, fails⟩ := by
  rw [reach, hholds, hfails]
  rfl

/-- A decision on well-formed formulas says whether the base implies the
    statement, and whether it implies that the statement is false. -/
theorem exists_reach_eq_ok {base statement : Formula} (hbase : base.check = .ok ())
    (hstatement : statement.check = .ok ()) (hbasePaired : base.XorsPaired)
    (hpaired : statement.XorsPaired) (fixed : Assignment) :
    ∃ holds fails, entails base statement fixed = .ok holds ∧
      entails base statement.negate fixed = .ok fails ∧
      (holds = true ↔ ∀ v, fixed.Agrees v → base.truth v = true → statement.truth v = true) ∧
      (fails = true ↔ ∀ v, fixed.Agrees v → base.truth v = true → statement.truth v = false) := by
  have hnegation : statement.negate.check = .ok () := by rw [Formula.check_negate, hstatement]
  obtain ⟨holds, hholds, hiffHolds⟩ :=
    (TruthTable.wellFormed_ofFormulas hbase hstatement fixed).check_decides hbasePaired hpaired
  obtain ⟨fails, hfails, hiffFails⟩ :=
    (TruthTable.wellFormed_ofFormulas hbase hnegation fixed).check_decides hbasePaired
      (Formula.xorsPaired_negate_iff.mpr hpaired)
  refine ⟨holds, fails, hholds, hfails, hiffHolds, ?_⟩
  simpa only [TruthTable.ofFormulas, Formula.truth_negate, Bool.not_eq_true'] using hiffFails

end Decision

namespace Knowledge

theorem check_eq_ok_iff {k : Knowledge} :
    k.check = .ok () ↔ ∀ rule ∈ k.rules, rule.check = .ok () := by
  rw [check, mapError_eq_ok_iff, base, Formula.check_all_eq_ok_iff]

theorem base_xorsPaired_iff {k : Knowledge} :
    k.base.XorsPaired ↔ ∀ rule ∈ k.rules, rule.XorsPaired :=
  Formula.xorsPaired_apply_iff (by decide)

/-- A valuation under which the fixed symbols have their values and every rule is true. -/
structure IsModel (k : Knowledge) (v : String → Bool) : Prop where
  fixed : k.fixed.Agrees v
  rules : ∀ rule ∈ k.rules, rule.truth v = true

theorem isModel_iff {k : Knowledge} {v : String → Bool} :
    k.IsModel v ↔ k.fixed.Agrees v ∧ k.base.truth v = true := by
  rw [base, Formula.truth_all_iff]
  exact ⟨fun h => ⟨h.fixed, h.rules⟩, fun h => ⟨h.1, h.2⟩⟩

theorem judge_eq {s : Formula} (hs : s.check = .ok ()) (k : Knowledge) :
    k.judge s = (Decision.reach k.base s k.fixed).mapError .eval := by
  rw [judge, Formula.check_negate, hs]
  rfl

variable {k : Knowledge} {s : Formula}

/-- Well-formed knowledge judges a well-formed statement, and the judgement says
    what is so in all of its models. -/
theorem exists_judge_eq_ok (hk : k.check = .ok ()) (hpaired : ∀ rule ∈ k.rules, rule.XorsPaired)
    (hs : s.check = .ok ()) (hspaired : s.XorsPaired) :
    ∃ d, k.judge s = .ok d ∧ (d.holds = true ↔ ∀ v, k.IsModel v → s.truth v = true) ∧
      (d.fails = true ↔ ∀ v, k.IsModel v → s.truth v = false) := by
  obtain ⟨holds, fails, hholds, hfails, hiffHolds, hiffFails⟩ :=
    Decision.exists_reach_eq_ok (mapError_eq_ok_iff.mp hk) hs (base_xorsPaired_iff.mpr hpaired)
      hspaired k.fixed
  refine ⟨⟨holds, fails⟩, ?_, ?_, ?_⟩
  · rw [judge_eq hs, Decision.reach_eq_ok hholds hfails]
    rfl
  · simpa only [isModel_iff, and_imp] using hiffHolds
  · simpa only [isModel_iff, and_imp] using hiffFails

end Knowledge

end Propositional
