import Propositional.Proofs.TruthTable.Choices

namespace Propositional.TruthTable

variable {t : TruthTable} {m : Assignment} {before after : List Assignment}
  {result : Except EvalError Bool}

/-- The models at which a walk evaluates the formulas, in their order. The second
    branch at a free symbol is taken only if the first one has ended with true. -/
def reachedFrom (t : TruthTable) : List String → Assignment → List Assignment
  | [], model => [model]
  | name :: names, model =>
    match t.fixed.get? name with
    | some value => t.reachedFrom names (model.insert name value)
    | none =>
      match (t.scanFrom names (model.insert name true)).result with
      | .ok true =>
        t.reachedFrom names (model.insert name true) ++
          t.reachedFrom names (model.insert name false)
      | _ => t.reachedFrom names (model.insert name true)

def reached (t : TruthTable) : List Assignment :=
  t.reachedFrom t.symbols ∅

/-- Some models up to the first one that settles something. -/
def throughSettled (t : TruthTable) : List Assignment → List Assignment
  | [] => []
  | model :: models => model :: if (t.settled? model).isSome then [] else t.throughSettled models

theorem throughSettled_append_of_unsettled (hbefore : ∀ m ∈ before, t.settled? m = none)
    (after : List Assignment) :
    t.throughSettled (before ++ after) = before ++ t.throughSettled after := by
  induction before with
  | nil => rfl
  | cons m before ih =>
    have hm := hbefore m (by simp)
    have hothers := ih fun n hn => hbefore n (by simp [hn])
    simp [throughSettled, hm, hothers]

theorem throughSettled_of_unsettled (hbefore : ∀ m ∈ before, t.settled? m = none) :
    t.throughSettled before = before := by
  simpa [throughSettled] using throughSettled_append_of_unsettled hbefore []

theorem throughSettled_of_settled (hbefore : ∀ m ∈ before, t.settled? m = none)
    (hm : t.settled? m = some result) (after : List Assignment) :
    t.throughSettled (before ++ m :: after) = before ++ [m] := by
  rw [throughSettled_append_of_unsettled hbefore, throughSettled, hm]
  rfl

/-- What a walk over some models did not settle it goes on behind them. -/
theorem throughSettled_append (first second : List Assignment) :
    t.throughSettled (first ++ second) =
      match (t.scanModels first).result with
      | .ok true => t.throughSettled first ++ t.throughSettled second
      | _ => t.throughSettled first := by
  split
  · have hnone := result_scanModels_eq_ok_true_iff.mp ‹_›
    rw [throughSettled_append_of_unsettled hnone, throughSettled_of_unsettled hnone]
  · rename_i hne
    have hsome : first.findSome? t.settled? ≠ none := by
      rw [ne_eq, List.findSome?_eq_none_iff, ← result_scanModels_eq_ok_true_iff]
      exact hne
    obtain ⟨result, hfirst⟩ := Option.ne_none_iff_exists'.mp hsome
    obtain ⟨before, m, after, rfl, hm, hbefore⟩ := List.findSome?_eq_some_iff.mp hfirst
    rw [List.append_assoc, List.cons_append, throughSettled_of_settled hbefore hm,
      throughSettled_of_settled hbefore hm]

/-- The branching walk reaches the completions up to the first one that settles
    something, and no other. -/
theorem reachedFrom_eq_throughSettled (t : TruthTable) (names : List String) (model : Assignment) :
    t.reachedFrom names model = t.throughSettled (completionsFrom t.fixed names model) := by
  -- Whether the second branch is taken hangs on the result of the first one, which the
  -- walk over the listed completions has too.
  induction names generalizing model with
  | nil => simp [reachedFrom, completionsFrom, throughSettled]
  | cons name names ih =>
    cases hfixed : t.fixed.get? name with
    | some value => simp only [reachedFrom, completionsFrom, hfixed, ih]
    | none =>
      simp only [reachedFrom, completionsFrom, hfixed, ih, throughSettled_append,
        scanFrom_eq_scanModels]

theorem reached_eq_throughSettled (t : TruthTable) : t.reached = t.throughSettled t.models := by
  rw [reached, reachedFrom_eq_throughSettled, ← completions_eq_models, completions]

/-- The base is true at a model. -/
def HoldsAt (t : TruthTable) (m : Assignment) : Prop :=
  t.base.evaluate m = .ok true

instance (t : TruthTable) (m : Assignment) : Decidable (t.HoldsAt m) :=
  inferInstanceAs (Decidable (t.base.evaluate m = .ok true))

/-- A model at which nothing is settled leaves a trace where the base is true. -/
theorem held_row_of_unsettled (hm : t.settled? m = none) :
    (t.row m).held = if t.HoldsAt m then [true] else [] := by
  have hresult := settled?_eq_none_iff.mp hm
  rw [row] at hresult ⊢
  cases hbase : t.base.evaluate m with
  | error e => simp [HoldsAt, hbase]
  | ok value =>
    cases value with
    | false => simp [HoldsAt, hbase]
    | true =>
      have hquery : t.query.evaluate m = .ok true := by
        rw [hbase] at hresult
        cases hquery : t.query.evaluate m with
        | error e => simp [hquery] at hresult
        | ok value => simpa [hquery] using hresult
      simp [HoldsAt, hbase, hquery]

/-- The trace of models at which nothing is settled has true for each one where the
    base is true. -/
theorem held_scanModels_of_unsettled (hbefore : ∀ m ∈ before, t.settled? m = none) :
    (t.scanModels before).held = List.replicate (before.countP (t.HoldsAt ·)) true := by
  induction before with
  | nil => rfl
  | cons m before ih =>
    have hm := hbefore m (by simp)
    have hothers := ih fun n hn => hbefore n (by simp [hn])
    rw [scanModels, Scan.andThen_of_ok_true (settled?_eq_none_iff.mp hm), held_row_of_unsettled hm,
      hothers, List.countP_cons]
    by_cases hbase : t.HoldsAt m
    · simp [hbase, List.replicate_succ]
    · simp [hbase]

/-- Behind that trace a false stands if the query is false at the first model that
    settles something. -/
theorem held_scanModels_of_settled (hbefore : ∀ m ∈ before, t.settled? m = none)
    (hm : t.settled? m = some (.ok false)) :
    (t.scanModels (before ++ m :: after)).held =
      List.replicate (before.countP (t.HoldsAt ·)) true ++ [false] := by
  have hend : (t.scanModels (m :: after)).held = [false] := by
    have hne : (t.row m).result ≠ .ok true := by
      rw [ne_eq, ← settled?_eq_none_iff, hm]
      nofun
    obtain ⟨hbase, hquery, _⟩ := settled?_eq_ok_iff.mp hm
    rw [scanModels, Scan.andThen_of_ne_ok_true hne, row, hbase, hquery]
  rw [scanModels_append, Scan.andThen_of_ok_true (result_scanModels_eq_ok_true_iff.mpr hbefore),
    held_scanModels_of_unsettled hbefore, hend]

/-- What decides a table at a model: an error of the base, or where the base is true,
    an error of the query or that the query is false. -/
def DecidesAt (t : TruthTable) (m : Assignment) (result : Except EvalError Bool) : Prop :=
  (∃ e, t.base.evaluate m = .error e ∧ result = .error e) ∨
    (t.base.evaluate m = .ok true ∧ ∃ e, t.query.evaluate m = .error e ∧ result = .error e) ∨
    (t.base.evaluate m = .ok true ∧ t.query.evaluate m = .ok false ∧ result = .ok false)

theorem decidesAt_iff : t.DecidesAt m result ↔ t.settled? m = some result := by
  cases result with
  | error e =>
    rw [settled?_eq_error_iff, DecidesAt]
    simp
  | ok b =>
    rw [settled?_eq_ok_iff, DecidesAt]
    simp

theorem forall_not_decidesAt_iff : (∀ result, ¬ t.DecidesAt m result) ↔ t.settled? m = none := by
  simp only [decidesAt_iff]
  exact Option.eq_none_iff_forall_ne_some.symm

/-- The first model that decides a table settles its result, and a walk ends there. -/
theorem check_eq_of_decidesAt (hmodels : t.models = before ++ m :: after)
    (hbefore : ∀ n ∈ before, ∀ r, ¬ t.DecidesAt n r) (hm : t.DecidesAt m result) :
    t.check = result ∧ t.reached = before ++ [m] := by
  have hunsettled : ∀ n ∈ before, t.settled? n = none :=
    fun n hn => forall_not_decidesAt_iff.mp (hbefore n hn)
  have hsettled : t.settled? m = some result := decidesAt_iff.mp hm
  constructor
  · have hfirst : t.completions.findSome? t.settled? = some result := by
      rw [completions_eq_models]
      exact List.findSome?_eq_some_iff.mpr ⟨before, m, after, hmodels, hsettled, hunsettled⟩
    rw [check_eq, hfirst, Option.getD_some]
  · rw [reached_eq_throughSettled, hmodels, throughSettled_of_settled hunsettled hsettled]

/-- A walk through models none of which decides the table has reached all of them. -/
theorem check_eq_of_forall_not_decidesAt (h : ∀ n ∈ t.models, ∀ r, ¬ t.DecidesAt n r) :
    t.check = .ok true ∧ t.reached = t.models ∧ t.reached.length = 2 ^ t.free := by
  have hunsettled : ∀ n ∈ t.models, t.settled? n = none :=
    fun n hn => forall_not_decidesAt_iff.mp (h n hn)
  have hreached : t.reached = t.models := by
    rw [reached_eq_throughSettled, throughSettled_of_unsettled hunsettled]
  refine ⟨?_, hreached, ?_⟩
  · rw [check_eq_ok_true_iff, completions_eq_models]
    exact hunsettled
  · rw [hreached, length_models]

theorem held_of_check_eq_ok_true (h : t.check = .ok true) :
    t.scan.held = List.replicate (t.models.countP (t.HoldsAt ·)) true := by
  rw [check_eq_ok_true_iff, completions_eq_models] at h
  rw [scan, scanFrom_eq_scanModels, ← completions, completions_eq_models,
    held_scanModels_of_unsettled h]

theorem held_of_check_eq_ok_false (h : t.check = .ok false) :
    ∃ n, t.scan.held = List.replicate n true ++ [false] := by
  have hfirst : t.models.findSome? t.settled? = some (.ok false) := by
    rw [check_eq, completions_eq_models] at h
    cases hfind : t.models.findSome? t.settled? with
    | none => simp [hfind] at h
    | some result => simpa [hfind] using h
  obtain ⟨before, m, after, hmodels, hm, hbefore⟩ := List.findSome?_eq_some_iff.mp hfirst
  refine ⟨before.countP (t.HoldsAt ·), ?_⟩
  rw [scan, scanFrom_eq_scanModels, ← completions, completions_eq_models, hmodels,
    held_scanModels_of_settled hbefore hm]

/-- The models of a table are those of all vectors of values for its free entries,
    true before false. The first of them that decides the table gives the result, and
    nothing behind it is evaluated. If none does, the result is true after all of them.
    The trace is true for each model of the base, up to a query that was false. -/
theorem check_scans_models (t : TruthTable) :
    ((∀ values, values ∈ choices t.free ↔ values.length = t.free) ∧
      (choices t.free).Pairwise Precedes ∧ t.models.length = 2 ^ t.free) ∧
    (∀ before m after result, t.models = before ++ m :: after →
      (∀ earlier ∈ before, ∀ r, ¬ t.DecidesAt earlier r) → t.DecidesAt m result →
      t.check = result ∧ t.reached = before ++ [m]) ∧
    ((∀ m ∈ t.models, ∀ r, ¬ t.DecidesAt m r) →
      t.check = .ok true ∧ t.reached = t.models ∧ t.reached.length = 2 ^ t.free) ∧
    (t.check = .ok true →
      t.scan.held = List.replicate (t.models.countP (t.HoldsAt ·)) true) ∧
    (t.check = .ok false → ∃ n, t.scan.held = List.replicate n true ++ [false]) := by
  refine ⟨⟨fun _ => mem_choices_iff, pairwise_choices t.free, length_models t⟩, ?_,
    check_eq_of_forall_not_decidesAt, held_of_check_eq_ok_true, held_of_check_eq_ok_false⟩
  intro before m after result hmodels hbefore hm
  exact check_eq_of_decidesAt hmodels hbefore hm

/-- A symbol listed twice, one that is fixed, and one that occurs in no formula. -/
theorem check_scans_models_twice :
    let base : Formula := .apply .disj [.symbol "P", .symbol "Q"]
    let fixed := Assignment.ofList [("Z", false)]
    let refuted : TruthTable := ⟨base, .symbol "P", ["P", "Q", "P", "Z", "R"], fixed⟩
    let proved : TruthTable := ⟨base, base, ["P", "Q", "P", "Z"], fixed⟩
    (refuted.check = .ok false ∧ refuted.reached = refuted.models.take 3 ∧
      ∃ n, refuted.scan.held = List.replicate n true ++ [false]) ∧
    proved.check = .ok true ∧ proved.reached.length = 8 ∧
      proved.scan.held = List.replicate 6 true := by
  intro base fixed refuted proved
  have hrefuted := check_scans_models refuted
  have hproved := check_scans_models proved
  have hdecided := hrefuted.2.1 (refuted.models.take 2) _ _ (.ok false) rfl
    (fun m hm => forall_not_decidesAt_iff.mpr (List.findSome?_eq_none_iff.mp rfl m hm))
    (decidesAt_iff.mpr rfl)
  have hall := hproved.2.2.1
    (fun m hm => forall_not_decidesAt_iff.mpr (List.findSome?_eq_none_iff.mp rfl m hm))
  exact ⟨⟨hdecided.1, hdecided.2, hrefuted.2.2.2.2 hdecided.1⟩, hall.1, hall.2.2,
    hproved.2.2.2.1 hall.1⟩

end Propositional.TruthTable
