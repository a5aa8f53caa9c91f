import Propositional.Formula.Symbols

namespace Propositional.Formula

theorem mem_foldl_addSymbol {names found : List String} {name : String} :
    name ∈ found.foldl addSymbol names ↔ name ∈ names ∨ name ∈ found := by
  induction found generalizing names with
  | nil => simp
  | cons other found ih =>
    rw [List.foldl_cons, ih, mem_addSymbol, List.mem_cons, or_assoc]

theorem nodup_foldl_addSymbol {names : List String} (hnames : names.Nodup) (found : List String) :
    (found.foldl addSymbol names).Nodup := by
  induction found generalizing names with
  | nil => exact hnames
  | cons name found ih => exact ih (nodup_addSymbol hnames name)

theorem filter_addSymbol_of_pos {p : String → Bool} {name : String} (hname : p name = true)
    (names : List String) :
    (addSymbol names name).filter p = addSymbol (names.filter p) name := by
  by_cases hmem : name ∈ names <;> simp [addSymbol, hmem, hname]

theorem filter_addSymbol_of_neg {p : String → Bool} {name : String} (hname : ¬ p name = true)
    (names : List String) : (addSymbol names name).filter p = names.filter p := by
  by_cases hmem : name ∈ names <;> simp [addSymbol, hmem, hname]

/-- Collecting adds the same names of some kind, in the same order, whatever other names were
    there before. -/
theorem filter_foldl_addSymbol {p : String → Bool} {names others : List String}
    (h : names.filter p = others.filter p) (found : List String) :
    (found.foldl addSymbol names).filter p = (found.foldl addSymbol others).filter p := by
  induction found generalizing names others with
  | nil => exact h
  | cons name found ih =>
    apply ih
    by_cases hname : p name = true
    · rw [filter_addSymbol_of_pos hname, filter_addSymbol_of_pos hname, h]
    · rw [filter_addSymbol_of_neg hname, filter_addSymbol_of_neg hname, h]

/-- Collecting keeps the names that were there and adds those that occur. -/
theorem mem_collectSymbols {names : List String} {f : Formula} {name : String} :
    name ∈ collectSymbols names f ↔ name ∈ names ∨ name ∈ f.occurrences :=
  mem_foldl_addSymbol

theorem mem_symbols {f : Formula} {name : String} : name ∈ f.symbols ↔ name ∈ f.occurrences := by
  simp [symbols, mem_collectSymbols]

end Propositional.Formula
