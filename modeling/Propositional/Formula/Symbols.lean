import Propositional.Formula.Basic

namespace Propositional.Formula

mutual

/-- The symbols of a formula from left to right, each as often as it occurs. -/
def occurrences : Formula → List String
  | symbol name => [name]
  | apply _ operands => occurrencesAll operands

def occurrencesAll : List Formula → List String
  | [] => []
  | f :: fs => occurrences f ++ occurrencesAll fs

end

/-- A name is added at the end, unless it is listed already. -/
def addSymbol (names : List String) (name : String) : List String :=
  if name ∈ names then names else names ++ [name]

/-- Extends a list of names by the symbols of a formula, in the order of their first occurrence. -/
def collectSymbols (names : List String) (f : Formula) : List String :=
  f.occurrences.foldl addSymbol names

/-- The symbols of a formula in the order of their first occurrence, each once. -/
def symbols (f : Formula) : List String :=
  collectSymbols [] f

theorem occurrencesAll_eq_flatMap (fs : List Formula) :
    occurrencesAll fs = fs.flatMap occurrences := by
  induction fs with
  | nil => rfl
  | cons f fs ih => simp only [occurrencesAll, List.flatMap_cons, ih]

theorem nodup_addSymbol {names : List String} (hnames : names.Nodup) (name : String) :
    (addSymbol names name).Nodup := by
  unfold addSymbol
  split
  · exact hnames
  · rename_i habsent
    refine List.nodup_append.mpr ⟨hnames, by simp, ?_⟩
    intro other hother added hadded
    rw [List.mem_singleton.mp hadded]
    exact fun hsame => habsent (hsame ▸ hother)

theorem mem_addSymbol {names : List String} {name other : String} :
    other ∈ addSymbol names name ↔ other ∈ names ∨ other = name := by
  unfold addSymbol
  split
  · rename_i hpresent
    exact ⟨Or.inl, fun h => h.elim id (· ▸ hpresent)⟩
  · simp

end Propositional.Formula
