import Propositional.Proofs.Assignment
import Propositional.TruthTable

namespace Propositional.TruthTable

/-- The completions of a model by values for some symbols, in the order of a walk
    over them: a fixed symbol takes its value, any other true before false. -/
def completionsFrom (fixed : Assignment) : List String → Assignment → List Assignment
  | [], model => [model]
  | name :: names, model =>
    match fixed.get? name with
    | some value => completionsFrom fixed names (model.insert name value)
    | none =>
      completionsFrom fixed names (model.insert name true) ++
        completionsFrom fixed names (model.insert name false)

theorem completionsFrom_cons_of_free {fixed : Assignment} {name : String} {names : List String}
    {model : Assignment} (h : fixed.get? name = none) :
    completionsFrom fixed (name :: names) model =
      completionsFrom fixed names (model.insert name true) ++
        completionsFrom fixed names (model.insert name false) := by
  rw [completionsFrom, h]

theorem completionsFrom_cons_of_fixed {fixed : Assignment} {name : String} {names : List String}
    {model : Assignment} {value : Bool} (h : fixed.get? name = some value) :
    completionsFrom fixed (name :: names) model =
      completionsFrom fixed names (model.insert name value) := by
  rw [completionsFrom, h]

def completions (t : TruthTable) : List Assignment :=
  completionsFrom t.fixed t.symbols ∅

/-- The walk over some models one by one. -/
def scanModels (t : TruthTable) : List Assignment → Scan
  | [] => ⟨[], .ok true⟩
  | model :: models => (t.row model).andThen fun _ => t.scanModels models

namespace Scan

theorem andThen_of_ok_true {first : Scan} (h : first.result = .ok true) (second : Unit → Scan) :
    first.andThen second = ⟨first.held ++ (second ()).held, (second ()).result⟩ := by
  simp only [andThen, h]

theorem andThen_of_ne_ok_true {first : Scan} (h : first.result ≠ .ok true)
    (second : Unit → Scan) : first.andThen second = first := by
  unfold andThen
  split
  · exact absurd ‹_› h
  · rfl

theorem andThen_done (first : Scan) : (first.andThen fun _ => ⟨[], .ok true⟩) = first := by
  by_cases h : first.result = .ok true
  · rw [andThen_of_ok_true h, List.append_nil, ← h]
  · exact andThen_of_ne_ok_true h _

theorem andThen_assoc (first : Scan) (second third : Unit → Scan) :
    (first.andThen second).andThen third = first.andThen fun _ => (second ()).andThen third := by
  rcases first with ⟨held, e | value⟩
  · rfl
  · cases value with
    | false => rfl
    | true =>
      simp only [andThen]
      rcases second () with ⟨later, e | value⟩
      · rfl
      · cases value <;> simp only [List.append_assoc]

end Scan

theorem scanModels_append (t : TruthTable) (first second : List Assignment) :
    t.scanModels (first ++ second) =
      (t.scanModels first).andThen fun _ => t.scanModels second := by
  induction first with
  | nil => rfl
  | cons model models ih => simp only [List.cons_append, scanModels, ih, Scan.andThen_assoc]

/-- The branching walk visits the completions in the order in which they are listed. -/
theorem scanFrom_eq_scanModels (t : TruthTable) (names : List String) (model : Assignment) :
    t.scanFrom names model = t.scanModels (completionsFrom t.fixed names model) := by
  induction names generalizing model with
  | nil => simp only [scanFrom, completionsFrom, scanModels, Scan.andThen_done]
  | cons name names ih =>
    cases hfixed : t.fixed.get? name with
    | some value => simp only [scanFrom, completionsFrom, hfixed, ih]
    | none => simp only [scanFrom, completionsFrom, hfixed, ih, scanModels_append]

/-- What a single model settles: the query false, or an error. It settles nothing
    where the base is false or the query true. -/
def settled? (t : TruthTable) (model : Assignment) : Option (Except EvalError Bool) :=
  match (t.row model).result with
  | .ok true => none
  | result => some result

theorem settled?_eq_none_iff {t : TruthTable} {model : Assignment} :
    t.settled? model = none ↔ (t.row model).result = .ok true := by
  unfold settled?
  split
  · simpa using ‹_›
  · simp_all

theorem settled?_eq_some_iff {t : TruthTable} {model : Assignment}
    {result : Except EvalError Bool} :
    t.settled? model = some result ↔ (t.row model).result = result ∧ result ≠ .ok true := by
  unfold settled?
  split
  · rename_i heq
    rw [heq]
    simp only [reduceCtorEq, false_iff, not_and]
    exact fun hresult hne => hne hresult.symm
  · rename_i hne
    rw [Option.some.injEq]
    constructor
    · rintro rfl
      exact ⟨rfl, hne⟩
    · exact And.left

/-- A model settles an error where the base has it, or where the base is true and
    the query has it. -/
theorem settled?_eq_error_iff {t : TruthTable} {model : Assignment} {e : EvalError} :
    t.settled? model = some (.error e) ↔ t.base.evaluate model = .error e ∨
      t.base.evaluate model = .ok true ∧ t.query.evaluate model = .error e := by
  rw [settled?_eq_some_iff, row]
  cases t.base.evaluate model with
  | error e => simp
  | ok value =>
    cases value with
    | false => simp
    | true => cases t.query.evaluate model <;> simp

/-- A model settles a value, which is false, where the base is true and the query false. -/
theorem settled?_eq_ok_iff {t : TruthTable} {model : Assignment} {b : Bool} :
    t.settled? model = some (.ok b) ↔ t.base.evaluate model = .ok true ∧
      t.query.evaluate model = .ok false ∧ b = false := by
  rw [settled?_eq_some_iff, row]
  cases t.base.evaluate model with
  | error e => simp
  | ok value =>
    cases value with
    | false => cases b <;> simp
    | true =>
      cases t.query.evaluate model with
      | error e => simp
      | ok result => cases result <;> cases b <;> simp

theorem settled?_congr {t u : TruthTable} {model other : Assignment}
    (hbase : t.base.evaluate model = u.base.evaluate other)
    (hquery : t.query.evaluate model = u.query.evaluate other) :
    t.settled? model = u.settled? other := by
  simp only [settled?, row, hbase, hquery]

theorem result_scanModels (t : TruthTable) (models : List Assignment) :
    (t.scanModels models).result = (models.findSome? t.settled?).getD (.ok true) := by
  induction models with
  | nil => rfl
  | cons model models ih =>
    rw [scanModels, List.findSome?_cons]
    by_cases h : (t.row model).result = .ok true
    · rw [Scan.andThen_of_ok_true h, settled?_eq_none_iff.mpr h, ih]
    · rw [Scan.andThen_of_ne_ok_true h, settled?_eq_some_iff.mpr ⟨rfl, h⟩, Option.getD_some]

/-- A walk that comes to the end has found nothing settled. -/
theorem result_scanModels_eq_ok_true_iff {t : TruthTable} {models : List Assignment} :
    (t.scanModels models).result = .ok true ↔ ∀ m ∈ models, t.settled? m = none := by
  rw [result_scanModels, ← List.findSome?_eq_none_iff]
  cases hfirst : models.findSome? t.settled? with
  | none => simp
  | some result =>
    obtain ⟨m, _, hsettled⟩ := List.exists_of_findSome?_eq_some hfirst
    simpa using (settled?_eq_some_iff.mp hsettled).2

/-- The first completion that settles something decides the table. -/
theorem check_eq (t : TruthTable) :
    t.check = (t.completions.findSome? t.settled?).getD (.ok true) := by
  rw [check, scan, scanFrom_eq_scanModels, result_scanModels, completions]

theorem findSome?_congr {β : Type} {g h : Assignment → Option β} {models : List Assignment}
    (hsame : ∀ m ∈ models, g m = h m) : models.findSome? g = models.findSome? h := by
  induction models with
  | nil => rfl
  | cons m models ih =>
    rw [List.findSome?_cons, List.findSome?_cons, hsame m (by simp),
      ih fun n hn => hsame n (by simp [hn])]

/-- Two tables over the same completions have the same result, also where that is an error, if
    each of these settles the same in both. -/
theorem check_congr {t u : TruthTable} (hcompletions : t.completions = u.completions)
    (hsettled : ∀ m ∈ t.completions, t.settled? m = u.settled? m) : t.check = u.check := by
  rw [check_eq, check_eq, ← hcompletions, findSome?_congr hsettled]

theorem check_eq_ok_true_iff {t : TruthTable} :
    t.check = .ok true ↔ ∀ m ∈ t.completions, t.settled? m = none := by
  rw [check, scan, scanFrom_eq_scanModels, completions]
  exact result_scanModels_eq_ok_true_iff

theorem check_eq_error_iff {t : TruthTable} {e : EvalError} :
    t.check = .error e ↔ t.completions.findSome? t.settled? = some (.error e) := by
  rw [check_eq]
  cases t.completions.findSome? t.settled? <;> simp

end Propositional.TruthTable
