import Propositional.Proofs.Formula.Locality
import Propositional.Proofs.TruthTable.Entailment

namespace Propositional.TruthTable

/-- The symbols of both formulas of a table, each as often as it occurs. -/
def occurrences (t : TruthTable) : List String :=
  t.base.occurrences ++ t.query.occurrences

variable {t u : TruthTable} {m : Assignment}

theorem occurrences_subset_symbols (base query : Formula) (fixed : Assignment) :
    (ofFormulas base query fixed).occurrences ⊆ (ofFormulas base query fixed).symbols :=
  fun _ hname => mem_symbols_ofFormulas.mpr (List.mem_append.mp hname)

/-- What a model settles depends on the symbols of the two formulas only. -/
theorem settled?_eq_of_sameOn {other : Assignment} (h : m.SameOn t.occurrences other) :
    t.settled? m = t.settled? other :=
  settled?_congr (Formula.evaluate_congr (h.mono (List.subset_append_left _ _)))
    (Formula.evaluate_congr (h.mono (List.subset_append_right _ _)))

/-- Two tables that list some names and fix the same values for them complete these
    in the same ways, however often and in which order they list them. -/
theorem exists_sameOn_of_mem_completions {names : List String} (ht : names ⊆ t.symbols)
    (hu : names ⊆ u.symbols) (hfixed : t.fixed.SameOn names u.fixed) (hm : m ∈ t.completions) :
    ∃ n ∈ u.completions, n.SameOn names m := by
  obtain ⟨v, hv, hagrees⟩ := exists_agrees_of_mem_completions hm
  -- A completion of the second table is found from what the first one gives to the names,
  -- since all other values that the second table fixes are of no account.
  obtain ⟨n, hn, hcompleted⟩ := exists_mem_completions (u.fixed.agrees_completedBy v)
  have hsame : ∀ name ∈ names, u.fixed.completedBy v name = v name := by
    intro name hname
    cases hget : u.fixed.get? name with
    | none => exact Assignment.completedBy_of_get?_eq_none v hget
    | some value =>
      rw [u.fixed.agrees_completedBy v name value hget]
      exact (hagrees name value ((hfixed name hname).trans hget)).symm
  refine ⟨n, hn, fun name hname => ?_⟩
  rw [hcompleted.get?_eq (isSome_get?_of_mem_completions hn (hu hname)), hsame name hname,
    hv.get?_eq (isSome_get?_of_mem_completions hm (ht hname))]

/-- A table is true if another one is that asks the same and fixes the same values for
    the symbols that occur. -/
theorem check_eq_ok_true_of_sameOn (hbase : u.base = t.base) (hquery : u.query = t.query)
    (ht : t.occurrences ⊆ t.symbols) (hu : t.occurrences ⊆ u.symbols)
    (hfixed : t.fixed.SameOn t.occurrences u.fixed) (h : t.check = .ok true) :
    u.check = .ok true := by
  rw [check_eq_ok_true_iff] at h ⊢
  intro n hn
  obtain ⟨m, hm, hsame⟩ := exists_sameOn_of_mem_completions hu ht hfixed.symm hn
  have hsettled : u.settled? n = t.settled? n :=
    settled?_congr (by rw [hbase]) (by rw [hquery])
  rw [hsettled, ← settled?_eq_of_sameOn hsame, h m hm]

/-- Neither the list of symbols nor what is fixed for symbols that do not occur has an
    influence on whether a table is true. In which order the completions are visited
    decides only what else it may be: false, or an error, which a table of well-formed
    formulas without a short exclusive or never has. -/
theorem check_eq_ok_true_iff_of_sameOn (base query : Formula) {names others : List String}
    {fixed given : Assignment} (hnames : base.occurrences ++ query.occurrences ⊆ names)
    (hothers : base.occurrences ++ query.occurrences ⊆ others)
    (hfixed : fixed.SameOn (base.occurrences ++ query.occurrences) given) :
    let t : TruthTable := ⟨base, query, names, fixed⟩
    let u : TruthTable := ⟨base, query, others, given⟩
    (t.check = .ok true ↔ u.check = .ok true) ∧
      (∀ b c, t.check = .ok b → u.check = .ok c → b = c) ∧
      (base.check = .ok () → query.check = .ok () → base.XorsPaired → query.XorsPaired →
        ∃ b, t.check = .ok b ∧ u.check = .ok b) := by
  intro t u
  have hiff : t.check = .ok true ↔ u.check = .ok true :=
    ⟨check_eq_ok_true_of_sameOn rfl rfl hnames hothers hfixed,
      check_eq_ok_true_of_sameOn rfl rfl hothers hnames hfixed.symm⟩
  have hequal : ∀ b c, t.check = .ok b → u.check = .ok c → b = c := by
    intro b c hb hc
    rw [hb, hc, Except.ok.injEq, Except.ok.injEq] at hiff
    exact Bool.eq_iff_iff.mpr hiff
  refine ⟨hiff, hequal, fun hbase hquery hbasePaired hqueryPaired => ?_⟩
  obtain ⟨hbaseNames, hqueryNames⟩ := List.append_subset.mp hnames
  obtain ⟨hbaseOthers, hqueryOthers⟩ := List.append_subset.mp hothers
  have ht : t.WellFormed :=
    ⟨hbase, hquery, fun _ hname => hbaseNames hname, fun _ hname => hqueryNames hname⟩
  have hu : u.WellFormed :=
    ⟨hbase, hquery, fun _ hname => hbaseOthers hname, fun _ hname => hqueryOthers hname⟩
  obtain ⟨b, hb, _⟩ := ht.check_decides hbasePaired hqueryPaired
  obtain ⟨c, hc, _⟩ := hu.check_decides hbasePaired hqueryPaired
  exact ⟨b, hb, hequal b c hb hc ▸ hc⟩

/-- A symbol listed twice, one that occurs nowhere but is listed, and fixed values for
    symbols that occur nowhere. -/
theorem check_eq_ok_true_iff_of_sameOn_twice :
    let base : Formula := .apply .disj [.symbol "P", .symbol "Q"]
    let query : Formula := .apply .xor [.symbol "P", .symbol "Q", .symbol "R"]
    let fixed := Assignment.ofList [("R", false), ("Z", true)]
    let given := Assignment.ofList [("Y", true), ("R", false)]
    let t : TruthTable := ⟨base, query, ["P", "Q", "R"], fixed⟩
    let u : TruthTable := ⟨base, query, ["R", "Q", "Z", "P", "X", "Q"], given⟩
    (base.occurrences ++ query.occurrences ⊆ t.symbols ∧
      base.occurrences ++ query.occurrences ⊆ u.symbols ∧
      fixed.SameOn (base.occurrences ++ query.occurrences) given) ∧
    (t.check = .ok true ↔ u.check = .ok true) ∧ t.free ≠ u.free ∧
      ∃ b, t.check = .ok b ∧ u.check = .ok b := by
  intro base query fixed given t u
  have ht : base.occurrences ++ query.occurrences ⊆ t.symbols := by decide
  have hu : base.occurrences ++ query.occurrences ⊆ u.symbols := by decide
  have hfixed : fixed.SameOn (base.occurrences ++ query.occurrences) given := by decide
  obtain ⟨hiff, _, hdecides⟩ := check_eq_ok_true_iff_of_sameOn base query ht hu hfixed
  exact ⟨⟨ht, hu, hfixed⟩, hiff, by decide, hdecides rfl rfl (by decide) (by decide)⟩

/-- Which of a refutation and an error comes first is left to the order of the symbols. -/
example :
    let base : Formula := .apply .disj [.symbol "P", .apply .xor [.symbol "Q"]]
    (TruthTable.mk base (.symbol "Q") ["P", "Q"] ∅).check = .ok false ∧
      (TruthTable.mk base (.symbol "Q") ["Q", "P"] ∅).check =
        .error (.missingOperand .xor 1) :=
  ⟨rfl, rfl⟩

end Propositional.TruthTable
