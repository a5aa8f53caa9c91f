import Propositional.Proofs.Formula.Stumbling
import Propositional.Proofs.TruthTable.Coverage

namespace Propositional.TruthTable

/-- A table of well-formed formulas whose list of symbols leaves none of theirs out. -/
structure WellFormed (t : TruthTable) : Prop where
  base : t.base.check = .ok ()
  query : t.query.check = .ok ()
  base_listed : ∀ name ∈ t.base.occurrences, name ∈ t.symbols
  query_listed : ∀ name ∈ t.query.occurrences, name ∈ t.symbols

theorem wellFormed_ofFormulas {base query : Formula} (hbase : base.check = .ok ())
    (hquery : query.check = .ok ()) (fixed : Assignment) :
    (ofFormulas base query fixed).WellFormed where
  base := hbase
  query := hquery
  base_listed := fun _ hname => mem_symbols_ofFormulas.mpr (.inl hname)
  query_listed := fun _ hname => mem_symbols_ofFormulas.mpr (.inr hname)

/-- A row comes to an exclusive or that lacks an operand. The query matters only
    where the base is true. -/
def StumblesAt (t : TruthTable) (v : String → Bool) : Prop :=
  t.base.Stumbles v ∨ t.base.truth v = true ∧ t.query.Stumbles v

variable {t : TruthTable} {m : Assignment} {v : String → Bool}

theorem not_stumblesAt_of_paired (hbase : t.base.XorsPaired) (hquery : t.query.XorsPaired)
    (v : String → Bool) : ¬ t.StumblesAt v := by
  rintro (h | ⟨_, h⟩)
  · exact hbase.not_stumbles v h
  · exact hquery.not_stumbles v h

theorem WellFormed.base_bound (ht : t.WellFormed) (hm : m ∈ t.completions) :
    ∀ name ∈ t.base.occurrences, (m.get? name).isSome = true :=
  fun name hname => isSome_get?_of_mem_completions hm (ht.base_listed name hname)

theorem WellFormed.query_bound (ht : t.WellFormed) (hm : m ∈ t.completions) :
    ∀ name ∈ t.query.occurrences, (m.get? name).isSome = true :=
  fun name hname => isSome_get?_of_mem_completions hm (ht.query_listed name hname)

/-- A row that does not stumble says whether the base implies the query. -/
theorem WellFormed.result_row_eq_ok (ht : t.WellFormed) (hm : m ∈ t.completions)
    (hv : m.Agrees v) (h : ¬ t.StumblesAt v) :
    (t.row m).result = .ok (!t.base.truth v || t.query.truth v) := by
  obtain ⟨hbase, hquery⟩ := not_or.mp h
  rw [row, Formula.evaluate_eq_ok ht.base (ht.base_bound hm) hv hbase]
  cases htrue : t.base.truth v with
  | false => rfl
  | true =>
    have hquery : ¬ t.query.Stumbles v := fun h => hquery ⟨htrue, h⟩
    simp only [Formula.evaluate_eq_ok ht.query (ht.query_bound hm) hv hquery, Bool.not_true,
      Bool.false_or]

/-- A row that stumbles reports an exclusive or of one of the formulas. -/
theorem WellFormed.result_row_eq_error (ht : t.WellFormed) (hm : m ∈ t.completions)
    (hv : m.Agrees v) (h : t.StumblesAt v) :
    ∃ operands, (.apply .xor operands ∈ t.base.subformulas ∨
        .apply .xor operands ∈ t.query.subformulas) ∧ operands.length < 2 ∧
      (t.row m).result = .error (.missingOperand .xor operands.length) := by
  by_cases hbase : t.base.Stumbles v
  · obtain ⟨operands, hsub, hlength, heval⟩ :=
      Formula.evaluate_eq_error ht.base (ht.base_bound hm) hv hbase
    exact ⟨operands, .inl hsub, hlength, by simp only [row, heval]⟩
  · obtain ⟨htrue, hquery⟩ := h.resolve_left hbase
    have hvalue := Formula.evaluate_eq_ok ht.base (ht.base_bound hm) hv hbase
    obtain ⟨operands, hsub, hlength, heval⟩ :=
      Formula.evaluate_eq_error ht.query (ht.query_bound hm) hv hquery
    exact ⟨operands, .inr hsub, hlength, by simp only [row, hvalue, htrue, heval]⟩

/-- A row passes over a model exactly where it does not stumble and the base
    implies the query. -/
theorem WellFormed.passes_iff (ht : t.WellFormed) (hm : m ∈ t.completions)
    (hv : m.Agrees v) :
    t.settled? m = none ↔
      ¬ t.StumblesAt v ∧ (t.base.truth v = true → t.query.truth v = true) := by
  rw [settled?_eq_none_iff]
  by_cases h : t.StumblesAt v
  · obtain ⟨operands, _, _, herror⟩ := ht.result_row_eq_error hm hv h
    simp [herror, h]
  · rw [ht.result_row_eq_ok hm hv h]
    cases t.base.truth v <;> simp [h]

end Propositional.TruthTable
