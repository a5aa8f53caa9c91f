import Propositional.Proofs.TruthTable.Completions

namespace Propositional

namespace Formula

theorem evaluate_negate (f : Formula) (a : Assignment) :
    f.negate.evaluate a = (f.evaluate a).map (!·) := by
  rw [negate, evaluate]
  cases f.evaluate a <;> rfl

theorem evaluate_negate_negate (f : Formula) (a : Assignment) :
    f.negate.negate.evaluate a = f.evaluate a := by
  rw [evaluate_negate, evaluate_negate]
  cases f.evaluate a with
  | error e => rfl
  | ok value => cases value <;> rfl

theorem evaluate_negate_eq_error_iff {f : Formula} {a : Assignment} {e : EvalError} :
    f.negate.evaluate a = .error e ↔ f.evaluate a = .error e := by
  rw [evaluate_negate]
  cases f.evaluate a <;> simp [Except.map]

theorem occurrences_negate (f : Formula) : f.negate.occurrences = f.occurrences := by
  rw [negate, occurrences, occurrencesAll, occurrencesAll, List.append_nil]

end Formula

namespace TruthTable

/-- A statement and its negation are put to the same completions. -/
theorem completions_negate (base s : Formula) (fixed : Assignment) :
    (ofFormulas base s.negate fixed).completions = (ofFormulas base s fixed).completions := by
  have hsymbols : s.negate.collectSymbols base.symbols = s.collectSymbols base.symbols := by
    rw [Formula.collectSymbols, Formula.collectSymbols, Formula.occurrences_negate]
  rw [completions, completions, ofFormulas, ofFormulas, hsymbols]

/-- Two tables over the same models that settle the same errors, and both end with
    one, end with the same one: each ends with the first of them all. -/
theorem error_eq_of_findSome? {t u : TruthTable} {models : List Assignment} {e d : EvalError}
    (hsame : ∀ m e, t.settled? m = some (.error e) ↔ u.settled? m = some (.error e))
    (ht : models.findSome? t.settled? = some (.error e))
    (hu : models.findSome? u.settled? = some (.error d)) : e = d := by
  induction models with
  | nil => cases ht
  | cons m models ih =>
    rw [List.findSome?_cons] at ht hu
    cases hfirst : t.settled? m with
    | some result =>
      -- The first table ends here with its error, which the second one has as well.
      rw [hfirst] at ht
      obtain rfl := Option.some.inj ht
      rw [(hsame m e).mp hfirst] at hu
      exact Except.error.inj (Option.some.inj hu)
    | none =>
      rw [hfirst] at ht
      cases hsecond : u.settled? m with
      | none =>
        rw [hsecond] at hu
        exact ih ht hu
      | some result =>
        rw [hsecond] at hu
        obtain rfl := Option.some.inj hu
        rw [(hsame m d).mpr hsecond] at hfirst
        cases hfirst

end TruthTable

variable {base s : Formula} {fixed : Assignment}

theorem entails_negate_negate (base s : Formula) (fixed : Assignment) :
    entails base s.negate.negate fixed = entails base s fixed := by
  apply TruthTable.check_congr
  · rw [TruthTable.completions_negate, TruthTable.completions_negate]
  · intro m _
    exact TruthTable.settled?_congr rfl (s.evaluate_negate_negate m)

/-- If neither a statement nor its negation can be decided, both fail for the same reason. -/
theorem error_eq_of_entails_negate {e d : EvalError} (hs : entails base s fixed = .error e)
    (hnegation : entails base s.negate fixed = .error d) : e = d := by
  have hfirst := TruthTable.check_eq_error_iff.mp hs
  have hsecond := TruthTable.check_eq_error_iff.mp hnegation
  rw [TruthTable.completions_negate] at hsecond
  refine TruthTable.error_eq_of_findSome? (fun m e => ?_) hfirst hsecond
  rw [TruthTable.settled?_eq_error_iff, TruthTable.settled?_eq_error_iff]
  refine or_congr_right (and_congr_right fun _ => ?_)
  exact Formula.evaluate_negate_eq_error_iff.symm

end Propositional
