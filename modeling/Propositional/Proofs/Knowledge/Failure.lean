import Propositional.Proofs.Knowledge.Models
import Propositional.Proofs.TruthTable.Failure
import Propositional.Proofs.TruthTable.Negation
import Propositional.Statement

namespace Propositional

/-- Only well-formed statements are accepted. -/
theorem Statement.check_of_parse {text : String} {s : Formula} (h : Statement.parse text = .ok s) :
    s.check = .ok () := by
  obtain ⟨reading, _, h⟩ := bind_eq_ok_iff.mp h
  obtain ⟨_, hcheck, h⟩ := bind_eq_ok_iff.mp h
  cases h
  exact mapError_eq_ok_iff.mp hcheck

namespace TruthTable

theorem stumblesAt_negate_iff {base s : Formula} {fixed : Assignment} {v : String → Bool} :
    (ofFormulas base s.negate fixed).StumblesAt v ↔ (ofFormulas base s fixed).StumblesAt v := by
  simp only [StumblesAt, ofFormulas, Formula.stumbles_negate_iff]

end TruthTable

theorem Decision.exists_reach_eq_ok_iff {base s : Formula} {fixed : Assignment} :
    (∃ d, reach base s fixed = .ok d) ↔
      (∃ b, entails base s fixed = .ok b) ∧ ∃ b, entails base s.negate fixed = .ok b := by
  constructor
  · rintro ⟨d, hd⟩
    obtain ⟨holds, hholds, hd⟩ := bind_eq_ok_iff.mp hd
    obtain ⟨fails, hfails, _⟩ := bind_eq_ok_iff.mp hd
    exact ⟨⟨holds, hholds⟩, fails, hfails⟩
  · rintro ⟨⟨holds, hholds⟩, fails, hfails⟩
    exact ⟨_, reach_eq_ok hholds hfails⟩

theorem Decision.entails_eq_error_of_reach {base s : Formula} {fixed : Assignment} {e : EvalError}
    (h : reach base s fixed = .error e) :
    entails base s fixed = .error e ∨ entails base s.negate fixed = .error e := by
  rcases bind_eq_error_iff.mp h with h | ⟨holds, _, h⟩
  · exact .inl h
  · rcases bind_eq_error_iff.mp h with h | ⟨fails, _, h⟩
    · exact .inr h
    · cases h

namespace Knowledge

variable {k : Knowledge} {s : Formula}

/-- The completions to which knowledge and a statement are put, in their order. -/
def completions (k : Knowledge) (s : Formula) : List Assignment :=
  (TruthTable.ofFormulas k.base s k.fixed).completions

/-- Evaluation comes to an exclusive or without two operands, in the rules or,
    where these are true, in the statement. -/
def StumblesAt (k : Knowledge) (s : Formula) (v : String → Bool) : Prop :=
  k.base.Stumbles v ∨ k.base.truth v = true ∧ s.Stumbles v

theorem exists_judge_eq_ok_iff (hs : s.check = .ok ()) :
    (∃ d, k.judge s = .ok d) ↔
      (∃ b, entails k.base s k.fixed = .ok b) ∧ ∃ b, entails k.base s.negate k.fixed = .ok b := by
  simp only [judge_eq hs, mapError_eq_ok_iff]
  exact Decision.exists_reach_eq_ok_iff

theorem refutedAt_negate_iff {base : Formula} {fixed : Assignment} {v : String → Bool} :
    (TruthTable.ofFormulas base s.negate fixed).RefutedAt v ↔
      base.truth v = true ∧ s.truth v = true := by
  simp [TruthTable.RefutedAt, TruthTable.ofFormulas]

/-- A well-formed statement is judged exactly if, before the first completion at
    which evaluation stumbles, the rules were true once with the statement and
    once without it. Otherwise the failure is an exclusive or, in the rules or in
    the statement, that lacks an operand. -/
theorem judge_succeeds_iff_decided_before_stumbling (hk : k.check = .ok ())
    (hs : (∃ text, Statement.parse text = .ok s) ∨ s.check = .ok ()) :
    ((∃ d, k.judge s = .ok d) ↔
      ∀ before m after, k.completions s = before ++ m :: after → k.StumblesAt s m.valuation →
        (∃ earlier ∈ before,
          k.base.truth earlier.valuation = true ∧ s.truth earlier.valuation = true) ∧
        ∃ earlier ∈ before,
          k.base.truth earlier.valuation = true ∧ s.truth earlier.valuation = false) ∧
    ∀ e, k.judge s = .error e →
      ∃ operands, (.apply .xor operands ∈ k.base.subformulas ∨
          .apply .xor operands ∈ s.subformulas) ∧ operands.length < 2 ∧
        e = .eval (.missingOperand .xor operands.length) := by
  have hs : s.check = .ok () := hs.elim (fun ⟨_, h⟩ => Statement.check_of_parse h) id
  have hbase : k.base.check = .ok () := mapError_eq_ok_iff.mp hk
  have hholds := TruthTable.wellFormed_ofFormulas hbase hs k.fixed
  have hfails := TruthTable.wellFormed_ofFormulas hbase ((s.check_negate).trans hs) k.fixed
  constructor
  · rw [exists_judge_eq_ok_iff hs, entails, entails, hholds.exists_check_eq_ok_iff,
      hfails.exists_check_eq_ok_iff, TruthTable.completions_negate]
    simp only [TruthTable.stumblesAt_negate_iff, refutedAt_negate_iff]
    constructor
    · rintro ⟨hfalse, htrue⟩ before m after hsplit hstumbles
      exact ⟨htrue before m after hsplit hstumbles, hfalse before m after hsplit hstumbles⟩
    · intro hboth
      exact ⟨fun before m after hsplit hstumbles => (hboth before m after hsplit hstumbles).2,
        fun before m after hsplit hstumbles => (hboth before m after hsplit hstumbles).1⟩
  · intro e he
    rw [judge_eq hs] at he
    obtain ⟨cause, hcause, rfl⟩ := mapError_eq_error_iff.mp he
    rcases Decision.entails_eq_error_of_reach hcause with h | h
    · obtain ⟨operands, hsub, hlength, rfl⟩ := hholds.check_eq_error h
      exact ⟨operands, hsub, hlength, rfl⟩
    · obtain ⟨operands, hsub, hlength, rfl⟩ := hfails.check_eq_error h
      refine ⟨operands, hsub.imp_right fun hsub => ?_, hlength, rfl⟩
      exact (Formula.mem_subformulas_negate.mp hsub).resolve_left nofun

/-- An exclusive or of one operand does no harm where evaluation stops before it. -/
theorem judge_succeeds_iff_decided_before_stumbling_disj :
    let k : Knowledge := ⟨[.apply .disj [.symbol "P", .apply .xor [.symbol "Q"]]],
      Assignment.ofList [("P", true)]⟩
    let s : Formula := .symbol "R"
    k.check = .ok () ∧ s.check = .ok () ∧ k.judge s = .ok ⟨false, false⟩ ∧
      ∀ before m after, k.completions s = before ++ m :: after → k.StumblesAt s m.valuation →
        (∃ earlier ∈ before,
          k.base.truth earlier.valuation = true ∧ s.truth earlier.valuation = true) ∧
        ∃ earlier ∈ before,
          k.base.truth earlier.valuation = true ∧ s.truth earlier.valuation = false := by
  intro k s
  have hjudge : k.judge s = .ok ⟨false, false⟩ := rfl
  exact ⟨rfl, rfl, hjudge,
    (judge_succeeds_iff_decided_before_stumbling (k := k) (s := s) rfl (.inr rfl)).1.mp ⟨_, hjudge⟩⟩

/-- A rule with an exclusive or of one operand is accepted and then cannot be
    evaluated, though the rule behind it is never true. -/
theorem judge_fails_on_short_xor :
    let loaded := (∅ : Knowledge).load "(xor P)\n(or)"
    loaded.failure? = none ∧ loaded.knowledge.check = .ok () ∧
      Statement.parse "Q" = .ok (.symbol "Q") ∧
      loaded.knowledge.judge (.symbol "Q") = .error (.eval (.missingOperand .xor 1)) := by
  decide +kernel

end Knowledge

end Propositional
