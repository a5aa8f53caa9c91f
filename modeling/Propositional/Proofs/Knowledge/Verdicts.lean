import Propositional.Proofs.Knowledge.Models

namespace Propositional

namespace Decision

theorem verdict_eq_contradictory_iff {d : Decision} :
    d.verdict = .contradictory ↔ d.holds = true ∧ d.fails = true := by
  rcases d with ⟨_ | _, _ | _⟩ <;> simp [verdict]

theorem verdict_eq_definitelyTrue_iff {d : Decision} :
    d.verdict = .definitelyTrue ↔ d.holds = true ∧ ¬ d.fails = true := by
  rcases d with ⟨_ | _, _ | _⟩ <;> simp [verdict]

theorem verdict_eq_definitelyFalse_iff {d : Decision} :
    d.verdict = .definitelyFalse ↔ ¬ d.holds = true ∧ d.fails = true := by
  rcases d with ⟨_ | _, _ | _⟩ <;> simp [verdict]

theorem verdict_eq_undetermined_iff {d : Decision} :
    d.verdict = .undetermined ↔ ¬ d.holds = true ∧ ¬ d.fails = true := by
  rcases d with ⟨_ | _, _ | _⟩ <;> simp [verdict]

end Decision

namespace Knowledge

variable {k : Knowledge} {s : Formula}

theorem not_forall_isModel_iff {value : Bool} :
    (¬ ∀ v, k.IsModel v → s.truth v = value) ↔ ∃ v, k.IsModel v ∧ s.truth v = !value := by
  simp only [not_forall, exists_prop, Bool.eq_not]

/-- Both a statement and its negation follow only from knowledge without models. -/
theorem contradictory_iff_no_model {d : Decision}
    (hholds : d.holds = true ↔ ∀ v, k.IsModel v → s.truth v = true)
    (hfails : d.fails = true ↔ ∀ v, k.IsModel v → s.truth v = false) :
    d.verdict = .contradictory ↔ ∀ v, ¬ k.IsModel v := by
  rw [Decision.verdict_eq_contradictory_iff, hholds, hfails]
  constructor
  · rintro ⟨htrue, hfalse⟩ v hv
    have h := htrue v hv
    rw [hfalse v hv] at h
    cases h
  · intro hnone
    exact ⟨fun v hv => absurd hv (hnone v), fun v hv => absurd hv (hnone v)⟩

/-- The four verdicts tell apart what the models of well-formed knowledge say
    about a well-formed statement. Whether there are any models does not depend on
    the statement. -/
theorem judge_verdict_iff_models (hk : k.check = .ok ())
    (hpaired : ∀ rule ∈ k.rules, rule.XorsPaired) (hs : s.check = .ok ())
    (hspaired : s.XorsPaired) :
    ∃ d, k.judge s = .ok d ∧
      (d.verdict = .contradictory ↔ ∀ v, ¬ k.IsModel v) ∧
      (d.verdict = .definitelyTrue ↔
        (∃ v, k.IsModel v) ∧ ∀ v, k.IsModel v → s.truth v = true) ∧
      (d.verdict = .definitelyFalse ↔
        (∃ v, k.IsModel v) ∧ ∀ v, k.IsModel v → s.truth v = false) ∧
      (d.verdict = .undetermined ↔
        (∃ v, k.IsModel v ∧ s.truth v = true) ∧ ∃ v, k.IsModel v ∧ s.truth v = false) ∧
      (d.verdict = .contradictory ↔ ∀ other : Formula, other.check = .ok () → other.XorsPaired →
        ∃ e, k.judge other = .ok e ∧ e.verdict = .contradictory) := by
  obtain ⟨d, hd, hholds, hfails⟩ := exists_judge_eq_ok hk hpaired hs hspaired
  have hcontradictory := contradictory_iff_no_model hholds hfails
  refine ⟨d, hd, hcontradictory, ?_, ?_, ?_, ?_⟩
  · rw [Decision.verdict_eq_definitelyTrue_iff, hholds, hfails, not_forall_isModel_iff]
    constructor
    · rintro ⟨htrue, v, hv, _⟩
      exact ⟨⟨v, hv⟩, htrue⟩
    · rintro ⟨⟨v, hv⟩, htrue⟩
      exact ⟨htrue, v, hv, htrue v hv⟩
  · rw [Decision.verdict_eq_definitelyFalse_iff, hholds, hfails, not_forall_isModel_iff]
    constructor
    · rintro ⟨⟨v, hv, _⟩, hfalse⟩
      exact ⟨⟨v, hv⟩, hfalse⟩
    · rintro ⟨⟨v, hv⟩, hfalse⟩
      exact ⟨⟨v, hv, hfalse v hv⟩, hfalse⟩
  · rw [Decision.verdict_eq_undetermined_iff, hholds, hfails, not_forall_isModel_iff,
      not_forall_isModel_iff, and_comm]
    rfl
  · constructor
    · intro hverdict other hother hotherPaired
      obtain ⟨e, he, hholds, hfails⟩ := exists_judge_eq_ok hk hpaired hother hotherPaired
      exact ⟨e, he, (contradictory_iff_no_model hholds hfails).mpr (hcontradictory.mp hverdict)⟩
    · intro hall
      obtain ⟨e, he, hverdict⟩ := hall s hs hspaired
      rw [hd, Except.ok.injEq] at he
      rw [he]
      exact hverdict

/-- A fixed value that contradicts a rule leaves no model. -/
theorem judge_verdict_iff_models_contradicted :
    let k : Knowledge := ⟨[.symbol "P", .apply .imp [.symbol "P", .symbol "Q"]],
      Assignment.ofList [("P", false)]⟩
    let s : Formula := .symbol "R"
    k.check = .ok () ∧ (∀ rule ∈ k.rules, rule.XorsPaired) ∧ s.check = .ok () ∧ s.XorsPaired ∧
      k.judge s = .ok ⟨true, true⟩ ∧ ∀ v, ¬ k.IsModel v := by
  intro k s
  have hpaired : ∀ rule ∈ k.rules, rule.XorsPaired := by decide
  have hspaired : s.XorsPaired := by decide
  have hjudge : k.judge s = .ok ⟨true, true⟩ := rfl
  obtain ⟨d, hd, hcontradictory, _⟩ := judge_verdict_iff_models (k := k) rfl hpaired rfl hspaired
  rw [hjudge, Except.ok.injEq] at hd
  exact ⟨rfl, hpaired, rfl, hspaired, hjudge, hcontradictory.mp (by rw [← hd]; rfl)⟩

end Knowledge

end Propositional
