import Propositional.Proofs.TruthTable.Failure

namespace Propositional

namespace TruthTable

variable {t : TruthTable}

/-- A table that stumbles nowhere is true exactly if the base implies the query
    under every valuation that agrees with the fixed values. Though finitely many
    completions are visited, the valuations may differ on any symbol. -/
theorem WellFormed.check_eq_ok_true_iff_implies (ht : t.WellFormed)
    (hsmooth : ∀ v, ¬ t.StumblesAt v) :
    t.check = .ok true ↔
      ∀ v, t.fixed.Agrees v → t.base.truth v = true → t.query.truth v = true := by
  rw [check_eq_ok_true_iff]
  constructor
  · intro hall v hfixed
    obtain ⟨m, hm, hv⟩ := exists_mem_completions hfixed
    exact ((ht.passes_iff hm hv).mp (hall m hm)).2
  · intro himplies m hm
    obtain ⟨v, hv, hfixed⟩ := exists_agrees_of_mem_completions hm
    exact (ht.passes_iff hm hv).mpr ⟨hsmooth v, himplies v hfixed⟩

/-- Where no exclusive or lacks an operand there is a result, and it says whether
    the base implies the query. -/
theorem WellFormed.check_decides (ht : t.WellFormed) (hbase : t.base.XorsPaired)
    (hquery : t.query.XorsPaired) :
    ∃ b, t.check = .ok b ∧
      (b = true ↔ ∀ v, t.fixed.Agrees v → t.base.truth v = true → t.query.truth v = true) := by
  have hsmooth := not_stumblesAt_of_paired hbase hquery
  obtain ⟨b, hb⟩ : ∃ b, t.check = .ok b :=
    ht.exists_check_eq_ok_iff.mpr fun _ m _ _ hstumbles => absurd hstumbles (hsmooth m.valuation)
  have himplies := ht.check_eq_ok_true_iff_implies hsmooth
  rw [hb, Except.ok.injEq] at himplies
  exact ⟨b, hb, himplies⟩

end TruthTable

/-- Entailment of well-formed formulas is decided, without an error, by the
    valuations of all symbols that agree with the fixed values. These may name
    symbols that occur in neither formula, and may contradict the base. -/
theorem entails_decides_implication {base query : Formula} (hbase : base.check = .ok ())
    (hquery : query.check = .ok ()) (hbasePaired : base.XorsPaired)
    (hqueryPaired : query.XorsPaired) (fixed : Assignment) :
    ∃ b, entails base query fixed = .ok b ∧
      (b = true ↔ ∀ v : String → Bool,
        fixed.Agrees v → base.truth v = true → query.truth v = true) :=
  (TruthTable.wellFormed_ofFormulas hbase hquery fixed).check_decides hbasePaired hqueryPaired

/-- A third operand of an exclusive or, and a fixed symbol that occurs nowhere. -/
theorem entails_decides_implication_xor :
    let base : Formula := .all [.symbol "P", .apply .xor [.symbol "P", .symbol "Q", .symbol "R"]]
    let query : Formula := .negate (.symbol "Q")
    let fixed := Assignment.ofList [("Z", false)]
    base.check = .ok () ∧ query.check = .ok () ∧ base.XorsPaired ∧ query.XorsPaired ∧
      ∃ b, entails base query fixed = .ok b ∧
        (b = true ↔ ∀ v : String → Bool,
          fixed.Agrees v → base.truth v = true → query.truth v = true) :=
  ⟨rfl, rfl, by decide, by decide,
    entails_decides_implication rfl rfl (by decide) (by decide) _⟩

end Propositional
