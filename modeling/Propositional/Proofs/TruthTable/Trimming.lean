import Propositional.Proofs.Formula.Trimming
import Propositional.Proofs.TruthTable.Listing

namespace Propositional

namespace TruthTable

/-- Over the same symbols, trimmed formulas settle the same at each completion. -/
theorem check_trim_of_same_symbols (base query : Formula) (names : List String)
    (fixed : Assignment) :
    (mk base.trim query.trim names fixed).check = (mk base query names fixed).check :=
  check_congr rfl fun m _ => settled?_congr (base.evaluate_trim m) (query.evaluate_trim m)

theorem occurrences_trim_subset_symbols (base query : Formula) (fixed : Assignment) :
    (ofFormulas base.trim query.trim fixed).occurrences ⊆
      (ofFormulas base query fixed).symbols := by
  intro name hname
  apply occurrences_subset_symbols base query fixed
  rcases List.mem_append.mp hname with hname | hname
  · exact List.mem_append_left _ (base.occurrences_trim_subset hname)
  · exact List.mem_append_right _ (query.occurrences_trim_subset hname)

end TruthTable

open TruthTable

theorem entails_trim_eq_ok_true_iff (base query : Formula) (fixed : Assignment) :
    entails base.trim query.trim fixed = .ok true ↔ entails base query fixed = .ok true := by
  let t := ofFormulas base query fixed
  let u := ofFormulas base.trim query.trim fixed
  -- Between the two stands the table of the trimmed formulas over all the symbols there were.
  let w : TruthTable := ⟨base.trim, query.trim, t.symbols, fixed⟩
  have hu : u.occurrences ⊆ u.symbols := occurrences_subset_symbols _ _ fixed
  have hw : u.occurrences ⊆ w.symbols := occurrences_trim_subset_symbols base query fixed
  have hfixed : u.fixed.SameOn u.occurrences w.fixed := fun _ _ => rfl
  have hsame : w.check = t.check := check_trim_of_same_symbols base query t.symbols fixed
  change u.check = .ok true ↔ t.check = .ok true
  rw [← hsame]
  constructor
  · exact check_eq_ok_true_of_sameOn rfl rfl hu hw hfixed
  · exact check_eq_ok_true_of_sameOn rfl rfl hw hu hfixed.symm

/-- Operands that do not matter for the value of a connective have no influence on an answer,
    though they bring symbols that are enumerated, and may change the order of the others. A
    formula evaluates as the trimmed one does, also to the same error, and a query follows exactly
    if the trimmed one does; well-formed formulas without a short exclusive or always get the same
    answer. -/
theorem trimmed_formulas_answer_alike :
    (∀ (f : Formula) (a : Assignment), f.trim.evaluate a = f.evaluate a) ∧
    ∀ (base query : Formula) (fixed : Assignment),
      (entails base.trim query.trim fixed = .ok true ↔ entails base query fixed = .ok true) ∧
      (base.check = .ok () → query.check = .ok () → base.XorsPaired → query.XorsPaired →
        ∃ b, entails base query fixed = .ok b ∧ entails base.trim query.trim fixed = .ok b) := by
  refine ⟨Formula.evaluate_trim, fun base query fixed => ?_⟩
  have hiff := entails_trim_eq_ok_true_iff base query fixed
  refine ⟨hiff, fun hbase hquery hbasePaired hqueryPaired => ?_⟩
  obtain ⟨b, hb, _⟩ :=
    (wellFormed_ofFormulas hbase hquery fixed).check_decides hbasePaired hqueryPaired
  obtain ⟨c, hc, _⟩ := (wellFormed_ofFormulas (Formula.check_trim hbase)
    (Formula.check_trim hquery) fixed).check_decides hbasePaired.trim hqueryPaired.trim
  change entails base query fixed = .ok b at hb
  change entails base.trim query.trim fixed = .ok c at hc
  rw [hb, hc, Except.ok.injEq, Except.ok.injEq] at hiff
  obtain rfl : c = b := Bool.eq_iff_iff.mpr hiff
  exact ⟨c, hb, hc⟩

/-- The symbol `R` is met first in an operand that is not used, and behind `S` in one that is. -/
theorem trimmed_formulas_answer_alike_reordered :
    let base : Formula := .apply .conj [.apply .xor [.symbol "P", .symbol "Q", .symbol "R"],
      .apply .disj [.symbol "S", .symbol "R"]]
    let query : Formula := .apply .xor [.symbol "Q", .symbol "P", .symbol "T"]
    let fixed := Assignment.ofList [("Z", true)]
    ((ofFormulas base query fixed).symbols = ["P", "Q", "R", "S", "T"] ∧
      (ofFormulas base.trim query.trim fixed).symbols = ["P", "Q", "S", "R"]) ∧
    (base.check = .ok () ∧ query.check = .ok () ∧ base.XorsPaired ∧ query.XorsPaired) ∧
      entails base query fixed = .ok true ∧ entails base.trim query.trim fixed = .ok true := by
  intro base query fixed
  have hbase : base.check = .ok () := rfl
  have hquery : query.check = .ok () := rfl
  have hbasePaired : base.XorsPaired := by decide
  have hqueryPaired : query.XorsPaired := by decide
  obtain ⟨b, hb, htrim⟩ :=
    (trimmed_formulas_answer_alike.2 base query fixed).2 hbase hquery hbasePaired hqueryPaired
  have htrue : entails base query fixed = .ok true := rfl
  obtain rfl := Except.ok.inj (htrue.symm.trans hb)
  exact ⟨⟨by decide +kernel, by decide +kernel⟩, ⟨hbase, hquery, hbasePaired, hqueryPaired⟩, htrue,
    htrim⟩

/-- Which of a refutation and an error comes first may change where the symbols change places. -/
example :
    let idle : Formula := .apply .iff [.symbol "T", .symbol "T", .symbol "Q"]
    let base : Formula := .all [idle, .apply .disj [.symbol "P", .apply .xor [.symbol "Q"]]]
    entails base (.symbol "Q") ∅ = .error (.missingOperand .xor 1) ∧
      entails base.trim (.symbol "Q") ∅ = .ok false :=
  ⟨rfl, rfl⟩

end Propositional
