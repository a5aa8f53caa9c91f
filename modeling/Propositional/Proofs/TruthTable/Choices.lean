import Mathlib.Algebra.Group.Nat.Defs
import Mathlib.Data.List.Basic
import Propositional.Proofs.TruthTable.Completions

namespace Propositional.TruthTable

/-- The vectors of some length in lexicographic order, true before false. -/
def choices : Nat → List (List Bool)
  | 0 => [[]]
  | count + 1 => (choices count).map (true :: ·) ++ (choices count).map (false :: ·)

/-- One vector comes before another: it has true where they differ first. -/
def Precedes : List Bool → List Bool → Prop :=
  List.Lex fun a b => a = true ∧ b = false

theorem length_choices (count : Nat) : (choices count).length = 2 ^ count := by
  induction count with
  | zero => rfl
  | succ count ih =>
    rw [choices, List.length_append, List.length_map, List.length_map, ih, Nat.pow_succ]
    omega

theorem mem_choices_iff {count : Nat} {values : List Bool} :
    values ∈ choices count ↔ values.length = count := by
  induction count generalizing values with
  | zero => simp [choices]
  | succ count ih =>
    cases values with
    | nil => simp [choices]
    | cons value values => cases value <;> simp [choices, ih]

theorem pairwise_choices (count : Nat) : (choices count).Pairwise Precedes := by
  induction count with
  | zero => exact List.pairwise_singleton _ _
  | succ count ih =>
    have hsame : ∀ value, ((choices count).map (value :: ·)).Pairwise Precedes := by
      intro value
      exact List.pairwise_map.mpr (ih.imp fun h => .cons h)
    refine List.pairwise_append.mpr ⟨hsame true, hsame false, ?_⟩
    intro first hfirst second hsecond
    obtain ⟨values, _, rfl⟩ := List.mem_map.mp hfirst
    obtain ⟨others, _, rfl⟩ := List.mem_map.mp hsecond
    exact .rel ⟨rfl, rfl⟩

/-- The entries that the listed symbols get: the fixed value where there is one,
    otherwise the next value of a vector. -/
def entriesOf (fixed : Assignment) : List String → List Bool → List (String × Bool)
  | [], _ => []
  | name :: names, values =>
    match fixed.get? name, values with
    | some value, values => (name, value) :: entriesOf fixed names values
    | none, value :: values => (name, value) :: entriesOf fixed names values
    | none, [] => []

/-- The models of a table, one for each vector of values for its free entries. -/
def models (t : TruthTable) : List Assignment :=
  (choices t.free).map fun values => Assignment.ofList (entriesOf t.fixed t.symbols values)

/-- Branching at each free symbol lists the vectors in their order. -/
theorem completionsFrom_eq_map (fixed : Assignment) (names : List String) (model : Assignment) :
    completionsFrom fixed names model =
      (choices (names.countP fun name => (fixed.get? name).isNone)).map fun values =>
        (entriesOf fixed names values).foldl (fun a entry => a.insert entry.1 entry.2) model := by
  induction names generalizing model with
  | nil => rfl
  | cons name names ih =>
    cases hfixed : fixed.get? name with
    | some value =>
      have hcount : (name :: names).countP (fun name => (fixed.get? name).isNone) =
          names.countP fun name => (fixed.get? name).isNone := by simp [hfixed]
      rw [hcount, completionsFrom, hfixed]
      simp only [ih, entriesOf, hfixed, List.foldl_cons]
    | none =>
      have hcount : (name :: names).countP (fun name => (fixed.get? name).isNone) =
          names.countP (fun name => (fixed.get? name).isNone) + 1 := by simp [hfixed]
      rw [hcount, completionsFrom, hfixed]
      simp only [ih, choices, List.map_append, List.map_map, Function.comp_def, entriesOf, hfixed,
        List.foldl_cons]

theorem completions_eq_models (t : TruthTable) : t.completions = t.models :=
  completionsFrom_eq_map t.fixed t.symbols ∅

theorem length_models (t : TruthTable) : t.models.length = 2 ^ t.free := by
  rw [models, List.length_map, length_choices]

end Propositional.TruthTable
