import Propositional.Proofs.TruthTable.Coverage

namespace Propositional

namespace TruthTable

variable {fixed m : Assignment}

/-- The implication is put to the same completions as its conclusion, since its hypothesis is
    listed before the conclusion on either side. -/
theorem completions_imp (base hypothesis conclusion : Formula) (fixed : Assignment) :
    (ofFormulas base (.apply .imp [hypothesis, conclusion]) fixed).completions =
      (ofFormulas (.apply .conj [base, hypothesis]) conclusion fixed).completions := by
  have hsymbols : (ofFormulas base (.apply .imp [hypothesis, conclusion]) fixed).symbols =
      (ofFormulas (.apply .conj [base, hypothesis]) conclusion fixed).symbols := by
    rw [symbols_ofFormulas, symbols_ofFormulas]
    simp only [Formula.occurrences, Formula.occurrencesAll, List.append_nil, List.append_assoc]
  rw [completions, completions, hsymbols]
  rfl

/-- Where the base is true, a false hypothesis settles nothing, be it because it makes the
    implication true or because it makes the larger base false. -/
theorem settled?_imp (base hypothesis conclusion : Formula) :
    (ofFormulas base (.apply .imp [hypothesis, conclusion]) fixed).settled? m =
      (ofFormulas (.apply .conj [base, hypothesis]) conclusion fixed).settled? m := by
  simp only [settled?, row, ofFormulas, Formula.evaluate, Formula.evaluateAll]
  cases base.evaluate m with
  | error e => rfl
  | ok value =>
    cases value with
    | false => rfl
    | true =>
      cases hypothesis.evaluate m with
      | error e => rfl
      | ok value => cases value <;> rfl

end TruthTable

/-- To ask for an implication is to ask for its conclusion with the hypothesis added to the base.
    The formulas need not be well formed; where one side is an error, the other is the same one. -/
theorem entails_imp_eq_entails_conj (base hypothesis conclusion : Formula) (fixed : Assignment) :
    entails base (.apply .imp [hypothesis, conclusion]) fixed =
      entails (.apply .conj [base, hypothesis]) conclusion fixed :=
  TruthTable.check_congr (TruthTable.completions_imp base hypothesis conclusion fixed)
    fun _ _ => TruthTable.settled?_imp base hypothesis conclusion

end Propositional
