import Propositional.Proofs.Formula.Symbols
import Propositional.Proofs.TruthTable.Completions

namespace Propositional.TruthTable

variable {fixed model m : Assignment}

/-- A completion gives the first symbol some value, which is the fixed one if
    there is one, and goes on from there. -/
theorem mem_completionsFrom_cons {name : String} {names : List String} :
    m ∈ completionsFrom fixed (name :: names) model ↔
      ∃ value, (∀ held, fixed.get? name = some held → held = value) ∧
        m ∈ completionsFrom fixed names (model.insert name value) := by
  cases hfixed : fixed.get? name with
  | some held => simp [completionsFrom, hfixed]
  | none => simp [completionsFrom, hfixed, or_comm]

/-- Completing never takes a value away, and gives one to every listed symbol. -/
theorem isSome_get?_of_mem_completionsFrom {names : List String}
    (hm : m ∈ completionsFrom fixed names model) {name : String}
    (hname : name ∈ names ∨ (model.get? name).isSome = true) : (m.get? name).isSome = true := by
  induction names generalizing model with
  | nil =>
    rw [List.mem_singleton.mp hm]
    simpa using hname
  | cons other names ih =>
    obtain ⟨value, _, hm⟩ := mem_completionsFrom_cons.mp hm
    apply ih hm
    rw [Assignment.get?_insert]
    by_cases heq : name = other
    · simp [heq]
    · simpa [heq] using hname

/-- Completing gives a value to no symbol that is not listed. -/
theorem get?_of_mem_completionsFrom {names : List String}
    (hm : m ∈ completionsFrom fixed names model) {name : String} (hname : name ∉ names) : m.get? name = model.get? name := by
  induction names generalizing model with
  | nil => rw [List.mem_singleton.mp hm]
  | cons other names ih =>
    rw [List.mem_cons, not_or] at hname
    obtain ⟨hne, hname⟩ := hname
    obtain ⟨value, _, hm⟩ := mem_completionsFrom_cons.mp hm
    rw [ih hm hname, Assignment.get?_insert, if_neg hne]

/-- A completion of a model that is consistent with the fixed values stays so. -/
theorem exists_agrees_of_mem_completionsFrom {names : List String}
    (hm : m ∈ completionsFrom fixed names model)
    (hmodel : ∃ v, model.Agrees v ∧ fixed.Agrees v) : ∃ v, m.Agrees v ∧ fixed.Agrees v := by
  induction names generalizing model with
  | nil =>
    rw [List.mem_singleton.mp hm]
    exact hmodel
  | cons name names ih =>
    obtain ⟨value, hvalue, hm⟩ := mem_completionsFrom_cons.mp hm
    obtain ⟨v, hv, hfixed⟩ := hmodel
    exact ih hm ⟨Function.update v name value, hv.insert_update name value, hfixed.update hvalue⟩

/-- Each valuation that agrees with the fixed values agrees with a completion. -/
theorem exists_mem_completionsFrom {v : String → Bool} (hfixed : fixed.Agrees v)
    (hmodel : model.Agrees v) (names : List String) :
    ∃ m ∈ completionsFrom fixed names model, m.Agrees v := by
  induction names generalizing model with
  | nil => exact ⟨model, List.mem_singleton.mpr rfl, hmodel⟩
  | cons name names ih =>
    obtain ⟨m, hm, hv⟩ := ih (hmodel.insert name)
    refine ⟨m, mem_completionsFrom_cons.mpr ⟨v name, ?_, hm⟩, hv⟩
    intro held hheld
    exact (hfixed name held hheld).symm

variable {t : TruthTable}

theorem isSome_get?_of_mem_completions (hm : m ∈ t.completions) {name : String}
    (hname : name ∈ t.symbols) : (m.get? name).isSome = true :=
  isSome_get?_of_mem_completionsFrom hm (.inl hname)

theorem exists_agrees_of_mem_completions (hm : m ∈ t.completions) :
    ∃ v, m.Agrees v ∧ t.fixed.Agrees v :=
  exists_agrees_of_mem_completionsFrom hm
    ⟨_, Assignment.agrees_empty _, t.fixed.agrees_valuation⟩

theorem exists_mem_completions {v : String → Bool} (hfixed : t.fixed.Agrees v) :
    ∃ m ∈ t.completions, m.Agrees v :=
  exists_mem_completionsFrom hfixed (Assignment.agrees_empty v) t.symbols

theorem symbols_ofFormulas (base query : Formula) (fixed : Assignment) :
    (ofFormulas base query fixed).symbols =
      (base.occurrences ++ query.occurrences).foldl Formula.addSymbol [] := by
  rw [List.foldl_append]
  rfl

theorem nodup_symbols_ofFormulas (base query : Formula) (fixed : Assignment) :
    (ofFormulas base query fixed).symbols.Nodup := by
  rw [symbols_ofFormulas]
  exact Formula.nodup_foldl_addSymbol List.nodup_nil _

/-- The table of two formulas lists the symbols that occur in one of them. -/
theorem mem_symbols_ofFormulas {base query : Formula} {name : String} :
    name ∈ (ofFormulas base query fixed).symbols ↔
      name ∈ base.occurrences ∨ name ∈ query.occurrences := by
  rw [ofFormulas, Formula.mem_collectSymbols, Formula.mem_symbols]

end Propositional.TruthTable
