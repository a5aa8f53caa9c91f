import Propositional.Proofs.TruthTable.Rows

namespace Propositional.TruthTable

variable {t : TruthTable} {m : Assignment} {v : String → Bool}

/-- Under a valuation the base is true and the query false. -/
def RefutedAt (t : TruthTable) (v : String → Bool) : Prop :=
  t.base.truth v = true ∧ t.query.truth v = false

theorem WellFormed.refutedAt_of_settled? (ht : t.WellFormed) (hm : m ∈ t.completions)
    (hv : m.Agrees v) {b : Bool} (hsettled : t.settled? m = some (.ok b)) : t.RefutedAt v := by
  obtain ⟨hrow, hne⟩ := settled?_eq_some_iff.mp hsettled
  by_cases h : t.StumblesAt v
  · obtain ⟨operands, _, _, herror⟩ := ht.result_row_eq_error hm hv h
    rw [herror] at hrow
    cases hrow
  · rw [ht.result_row_eq_ok hm hv h] at hrow
    rw [← hrow] at hne
    simpa [RefutedAt] using hne

theorem WellFormed.settled?_of_stumblesAt (ht : t.WellFormed) (hm : m ∈ t.completions)
    (hv : m.Agrees v) (h : t.StumblesAt v) :
    ∃ operands, (.apply .xor operands ∈ t.base.subformulas ∨
        .apply .xor operands ∈ t.query.subformulas) ∧ operands.length < 2 ∧
      t.settled? m = some (.error (.missingOperand .xor operands.length)) := by
  obtain ⟨operands, hsub, hlength, herror⟩ := ht.result_row_eq_error hm hv h
  exact ⟨operands, hsub, hlength, settled?_eq_some_iff.mpr ⟨herror, nofun⟩⟩

theorem WellFormed.stumblesAt_of_settled? (ht : t.WellFormed) (hm : m ∈ t.completions)
    (hv : m.Agrees v) {e : EvalError} (hsettled : t.settled? m = some (.error e)) :
    t.StumblesAt v := by
  by_contra h
  have hrow := (settled?_eq_some_iff.mp hsettled).1
  rw [ht.result_row_eq_ok hm hv h] at hrow
  cases hrow

/-- A table of well-formed formulas fails in one way only: at an exclusive or of
    one of them that lacks an operand. -/
theorem WellFormed.check_eq_error (ht : t.WellFormed) {e : EvalError} (he : t.check = .error e) :
    ∃ operands, (.apply .xor operands ∈ t.base.subformulas ∨
        .apply .xor operands ∈ t.query.subformulas) ∧ operands.length < 2 ∧
      e = .missingOperand .xor operands.length := by
  obtain ⟨m, hm, hsettled⟩ := List.exists_of_findSome?_eq_some (check_eq_error_iff.mp he)
  have hstumbles := ht.stumblesAt_of_settled? hm m.agrees_valuation hsettled
  obtain ⟨operands, hsub, hlength, herror⟩ :=
    ht.settled?_of_stumblesAt hm m.agrees_valuation hstumbles
  rw [hsettled, Option.some.injEq, Except.error.injEq] at herror
  exact ⟨operands, hsub, hlength, herror⟩

/-- A table of well-formed formulas has a result exactly if no completion where it
    stumbles comes before the first one that refutes the query. -/
theorem WellFormed.exists_check_eq_ok_iff (ht : t.WellFormed) :
    (∃ b, t.check = .ok b) ↔ ∀ before m after, t.completions = before ++ m :: after →
      t.StumblesAt m.valuation → ∃ earlier ∈ before, t.RefutedAt earlier.valuation := by
  constructor
  · rintro ⟨b, hb⟩ before m after hsplit hstumbles
    have hmem : ∀ earlier ∈ before ++ m :: after, earlier ∈ t.completions := by simp [hsplit]
    obtain ⟨operands, _, _, herror⟩ :=
      ht.settled?_of_stumblesAt (hmem m (by simp)) m.agrees_valuation hstumbles
    rw [check_eq, hsplit, List.findSome?_append, List.findSome?_cons, herror] at hb
    cases hbefore : before.findSome? t.settled? with
    | none =>
      rw [hbefore] at hb
      cases hb
    | some result =>
      rw [hbefore, Option.some_or, Option.getD_some] at hb
      subst hb
      obtain ⟨earlier, hearlier, hsettled⟩ := List.exists_of_findSome?_eq_some hbefore
      exact ⟨earlier, hearlier, ht.refutedAt_of_settled? (hmem earlier (by simp [hearlier]))
        earlier.agrees_valuation hsettled⟩
  · intro hall
    cases he : t.check with
    | ok b => exact ⟨b, rfl⟩
    | error e =>
      obtain ⟨before, m, after, hsplit, hsettled, hnone⟩ :=
        List.findSome?_eq_some_iff.mp (check_eq_error_iff.mp he)
      have hmem : ∀ earlier ∈ before ++ m :: after, earlier ∈ t.completions := by simp [hsplit]
      have hstumbles := ht.stumblesAt_of_settled? (hmem m (by simp)) m.agrees_valuation hsettled
      obtain ⟨earlier, hearlier, hbase, hquery⟩ := hall before m after hsplit hstumbles
      have hpasses := (ht.passes_iff (hmem earlier (by simp [hearlier]))
        earlier.agrees_valuation).mp (hnone earlier hearlier)
      rw [hpasses.2 hbase] at hquery
      cases hquery

end Propositional.TruthTable
