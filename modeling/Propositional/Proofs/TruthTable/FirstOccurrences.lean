import Mathlib.Data.List.Basic
import Mathlib.Data.List.Induction
import Propositional.Proofs.TruthTable.Coverage

namespace Propositional

namespace Formula

/-- Of some leaves those names that a list does not hold, each once, in the order in which they
    first occur among the leaves. -/
structure FirstOccurrences (names leaves found : List String) : Prop where
  mem_iff : ∀ name, name ∈ found ↔ name ∈ leaves ∧ name ∉ names
  ordered : found.Pairwise fun a b => leaves.idxOf a < leaves.idxOf b

namespace FirstOccurrences

variable {names leaves found : List String}

theorem nodup (h : FirstOccurrences names leaves found) : found.Nodup :=
  h.ordered.imp fun hlt heq => Nat.ne_of_lt hlt (congrArg leaves.idxOf heq)

theorem nodup_append (h : FirstOccurrences names leaves found) (hnames : names.Nodup) :
    (names ++ found).Nodup := by
  refine List.nodup_append.mpr ⟨hnames, h.nodup, ?_⟩
  rintro name hname other hfound rfl
  exact ((h.mem_iff name).mp hfound).2 hname

theorem mem_append_iff (h : FirstOccurrences names leaves found) {name : String} :
    name ∈ names ++ found ↔ name ∈ names ∨ name ∈ leaves := by
  rw [List.mem_append, h.mem_iff]
  by_cases hname : name ∈ names <;> simp [hname]

theorem empty (names : List String) : FirstOccurrences names [] [] :=
  ⟨by simp, .nil⟩

/-- Leaves that come behind do not change where a name first occurs. -/
theorem ordered_append (h : FirstOccurrences names leaves found) (others : List String) :
    found.Pairwise fun a b => (leaves ++ others).idxOf a < (leaves ++ others).idxOf b := by
  refine h.ordered.imp_of_mem fun ha hb hlt => ?_
  rwa [List.idxOf_append_of_mem ((h.mem_iff _).mp ha).1,
    List.idxOf_append_of_mem ((h.mem_iff _).mp hb).1]

/-- One more leaf is added at the end, unless its name is there already. -/
theorem addSymbol (h : FirstOccurrences names leaves found) (leaf : String) :
    ∃ others, Formula.addSymbol (names ++ found) leaf = names ++ others ∧
      FirstOccurrences names (leaves ++ [leaf]) others := by
  by_cases hleaf : leaf ∈ names ++ found
  · refine ⟨found, if_pos hleaf, fun name => ?_, h.ordered_append [leaf]⟩
    rw [h.mem_iff, List.mem_append, List.mem_singleton]
    refine and_congr_left fun hname => ⟨.inl, ?_⟩
    rintro (hold | rfl)
    · exact hold
    · exact (h.mem_append_iff.mp hleaf).resolve_left hname
  · have hnew := h.mem_append_iff.not.mp hleaf
    obtain ⟨hnames, hleaves⟩ := not_or.mp hnew
    refine ⟨found ++ [leaf], ?_, fun name => ?_, ?_⟩
    · rw [Formula.addSymbol, if_neg hleaf, List.append_assoc]
    · rw [List.mem_append, h.mem_iff, List.mem_append, List.mem_singleton]
      constructor
      · rintro (⟨hname, hother⟩ | rfl)
        · exact ⟨.inl hname, hother⟩
        · exact ⟨.inr rfl, hnames⟩
      · rintro ⟨hname | rfl, hother⟩
        · exact .inl ⟨hname, hother⟩
        · exact .inr rfl
    · refine List.pairwise_append.mpr ⟨h.ordered_append [leaf], List.pairwise_singleton _ _, ?_⟩
      intro name hname other hother
      obtain rfl := List.mem_singleton.mp hother
      have hold := ((h.mem_iff name).mp hname).1
      rw [List.idxOf_append_of_mem hold, List.idxOf_append_of_notMem hleaves]
      exact Nat.lt_add_right _ (List.idxOf_lt_length_of_mem hold)

end FirstOccurrences

/-- Names are collected leaf by leaf, so the induction takes off the leaf that comes last. -/
theorem exists_foldl_addSymbol_eq (names leaves : List String) :
    ∃ found, leaves.foldl addSymbol names = names ++ found ∧
      FirstOccurrences names leaves found := by
  induction leaves using List.reverseRecOn with
  | nil => exact ⟨[], (List.append_nil names).symm, .empty names⟩
  | append_singleton leaves leaf ih =>
    obtain ⟨found, hfold, hfound⟩ := ih
    obtain ⟨others, hadd, hothers⟩ := hfound.addSymbol leaf
    exact ⟨others, by rw [List.foldl_concat, hfold, hadd], hothers⟩

theorem collectSymbols_symbol (names : List String) (name : String) :
    collectSymbols names (symbol name) = addSymbol names name := rfl

/-- Collecting from one formula after the other is collecting from all of their leaves. -/
theorem foldl_collectSymbols (names : List String) (fs : List Formula) :
    fs.foldl collectSymbols names = (fs.flatMap occurrences).foldl addSymbol names := by
  rw [List.foldl_flatMap]
  rfl

/-- The names collected so far are handed on from operand to operand. -/
theorem collectSymbols_apply (names : List String) (c : Connective) (operands : List Formula) :
    collectSymbols names (apply c operands) = operands.foldl collectSymbols names := by
  rw [foldl_collectSymbols, collectSymbols, occurrences, occurrencesAll_eq_flatMap]

theorem foldl_addSymbol_of_subset {names leaves : List String} (h : leaves ⊆ names) :
    leaves.foldl addSymbol names = names := by
  induction leaves with
  | nil => rfl
  | cons leaf leaves ih =>
    obtain ⟨hleaf, hleaves⟩ := List.cons_subset.mp h
    rw [List.foldl_cons, addSymbol, if_pos hleaf, ih hleaves]

end Formula

open Formula

/-- Collecting from a formula goes through its operands from left to right and keeps a list of
    distinct names: what is there stays at its place, and behind it come the names that are new,
    each once, in the order in which they first occur. The same holds of any number of formulas one
    after the other, and a formula collected from again adds nothing. So a table lists the symbols
    of both of its formulas, no others and none twice, and those of its base first. -/
theorem collecting_merges_first_occurrences :
    (∀ names name, collectSymbols names (.symbol name) =
        if name ∈ names then names else names ++ [name]) ∧
      (∀ names c operands, collectSymbols names (.apply c operands) =
        operands.foldl collectSymbols names) ∧
      (∀ names (f : Formula), names.Nodup → ∃ found, collectSymbols names f = names ++ found ∧
        FirstOccurrences names f.occurrences found ∧ (names ++ found).Nodup) ∧
      (∀ names (fs : List Formula), names.Nodup → ∃ found,
        fs.foldl collectSymbols names = names ++ found ∧
          FirstOccurrences names (fs.flatMap occurrences) found ∧ (names ++ found).Nodup) ∧
      (∀ names f, collectSymbols (collectSymbols names f) f = collectSymbols names f) ∧
      ∀ base query fixed, let t := TruthTable.ofFormulas base query fixed
        t.symbols.Nodup ∧
          (∀ name, name ∈ t.symbols ↔ name ∈ base.occurrences ∨ name ∈ query.occurrences) ∧
          ∃ found, t.symbols = base.symbols ++ found ∧
            FirstOccurrences base.symbols query.occurrences found := by
  refine ⟨collectSymbols_symbol, collectSymbols_apply, ?_, ?_, ?_, ?_⟩
  · intro names f hnames
    obtain ⟨found, hcollect, hfound⟩ := exists_foldl_addSymbol_eq names f.occurrences
    exact ⟨found, hcollect, hfound, hfound.nodup_append hnames⟩
  · intro names fs hnames
    obtain ⟨found, hcollect, hfound⟩ := exists_foldl_addSymbol_eq names (fs.flatMap occurrences)
    exact ⟨found, (foldl_collectSymbols names fs).trans hcollect, hfound,
      hfound.nodup_append hnames⟩
  · intro names f
    exact foldl_addSymbol_of_subset fun name hname => mem_collectSymbols.mpr (.inr hname)
  · intro base query fixed t
    exact ⟨TruthTable.nodup_symbols_ofFormulas base query fixed,
      fun name => TruthTable.mem_symbols_ofFormulas,
      exists_foldl_addSymbol_eq base.symbols query.occurrences⟩

/-- A name that is held already is not found again, nor is one that occurs twice. -/
theorem collecting_merges_first_occurrences_repeated :
    let names := ["D", "A"]
    let f : Formula := .apply .conj
      [.apply .disj [.symbol "B", .symbol "A"], .apply .neg [.symbol "B"], .symbol "C"]
    names.Nodup ∧ ∃ found, collectSymbols names f = ["D", "A"] ++ found ∧ found = ["B", "C"] ∧
      FirstOccurrences names f.occurrences found := by
  intro names f
  have hnames : names.Nodup := by decide
  obtain ⟨_, _, hone, _⟩ := collecting_merges_first_occurrences
  obtain ⟨found, hcollect, hfound, _⟩ := hone names f hnames
  have hvalue : collectSymbols names f = names ++ ["B", "C"] := by decide +kernel
  exact ⟨hnames, found, hcollect, List.append_cancel_left (hcollect.symm.trans hvalue), hfound⟩

end Propositional
