import Propositional.Proofs.Formula.Literals
import Propositional.Proofs.TruthTable.Listing

namespace Propositional

namespace TruthTable

variable {β : Type} {g : Assignment → Option β} {fixed model m : Assignment} {names : List String}

/-- To fix symbols leaves the first find among the completions as it is, if nothing is
    found where a listed symbol has another value than the fixed one. -/
theorem findSome?_completionsFrom_fixed (hdistinct : names.Nodup)
    (hg : ∀ m ∈ completionsFrom ∅ names model, ∀ name ∈ names, ∀ value,
      fixed.get? name = some value → m.get? name ≠ some value → g m = none) :
    (completionsFrom fixed names model).findSome? g =
      (completionsFrom ∅ names model).findSome? g := by
  induction names generalizing model with
  | nil => rfl
  | cons name names ih =>
    obtain ⟨hfresh, hdistinct⟩ := List.nodup_cons.mp hdistinct
    have hmem : ∀ value, ∀ m ∈ completionsFrom ∅ names (model.insert name value),
        m ∈ completionsFrom ∅ (name :: names) model :=
      fun value m hm => mem_completionsFrom_cons.mpr ⟨value, nofun, hm⟩
    have hbranch : ∀ value, (completionsFrom fixed names (model.insert name value)).findSome? g =
        (completionsFrom ∅ names (model.insert name value)).findSome? g :=
      fun value => ih hdistinct fun m hm other hother =>
        hg m (hmem value m hm) other (List.mem_cons_of_mem name hother)
    rw [completionsFrom_cons_of_free (Assignment.get?_empty name), List.findSome?_append]
    cases hfixed : fixed.get? name with
    | none =>
      rw [completionsFrom_cons_of_free hfixed, List.findSome?_append, hbranch, hbranch]
    | some value =>
      -- The other branch keeps its value for the symbol down to the completions.
      have hother : ∀ other, other ≠ value →
          (completionsFrom ∅ names (model.insert name other)).findSome? g = none := by
        intro other hne
        rw [List.findSome?_eq_none_iff]
        intro m hm
        apply hg m (hmem other m hm) name List.mem_cons_self value hfixed
        rw [get?_of_mem_completionsFrom hm hfresh, Assignment.get?_insert_self]
        exact fun heq => hne (Option.some.inj heq)
      rw [completionsFrom_cons_of_fixed hfixed, hbranch]
      cases value with
      | true => rw [hother false nofun, Option.or_none]
      | false => rw [hother true nofun, Option.none_or]

/-- The first find among the completions is the same if only the free symbols are listed
    and the fixed values are there from the start, if it depends on some names only that
    are all listed or have their values already. -/
theorem findSome?_completionsFrom_filter {relevant : List String} {other : Assignment}
    (hg : ∀ m n, m.SameOn relevant n → g m = g n)
    (hmodel : ∀ name ∈ relevant, name ∉ names → model.get? name = other.get? name)
    (hother : ∀ name value, fixed.get? name = some value → other.get? name = some value) :
    (completionsFrom fixed names model).findSome? g =
      (completionsFrom fixed (names.filter fun name => (fixed.get? name).isNone) other).findSome?
        g := by
  induction names generalizing model other with
  | nil =>
    have hsame : model.SameOn relevant other :=
      fun name hname => hmodel name hname List.not_mem_nil
    simp only [List.filter_nil, completionsFrom, List.findSome?_singleton, hg _ _ hsame]
  | cons name names ih =>
    cases hfixed : fixed.get? name with
    | some value =>
      rw [completionsFrom_cons_of_fixed hfixed, List.filter_cons_of_neg (by simp [hfixed])]
      refine ih (fun later hlater hnot => ?_) hother
      rw [Assignment.get?_insert]
      by_cases heq : later = name
      · rw [if_pos heq, heq, hother name value hfixed]
      · rw [if_neg heq, hmodel later hlater (by simp [heq, hnot])]
    | none =>
      have hbranch : ∀ value, (completionsFrom fixed names (model.insert name value)).findSome? g =
          (completionsFrom fixed (names.filter fun name => (fixed.get? name).isNone)
            (other.insert name value)).findSome? g := by
        intro value
        refine ih (fun later hlater hnot => ?_) fun later held hheld => ?_
        · rw [Assignment.get?_insert, Assignment.get?_insert]
          by_cases heq : later = name
          · rw [if_pos heq, if_pos heq]
          · rw [if_neg heq, if_neg heq, hmodel later hlater (by simp [heq, hnot])]
        · have hne : later ≠ name := by
            rintro rfl
            rw [hfixed] at hheld
            cases hheld
          rw [Assignment.get?_insert, if_neg hne, hother later held hheld]
      rw [completionsFrom_cons_of_free hfixed, List.filter_cons_of_pos (by simp [hfixed]),
        completionsFrom_cons_of_free hfixed, List.findSome?_append, List.findSome?_append,
        hbranch, hbranch]

/-- So it is decided by the free symbols and their order, if all the names are listed. -/
theorem findSome?_completionsFrom_free {relevant : List String}
    (hg : ∀ m n, m.SameOn relevant n → g m = g n) (hlisted : relevant ⊆ names) :
    (completionsFrom fixed names ∅).findSome? g =
      (completionsFrom fixed (names.filter fun name => (fixed.get? name).isNone) fixed).findSome?
        g :=
  findSome?_completionsFrom_filter hg (fun _ hname hnot => absurd (hlisted hname) hnot)
    fun _ _ => id

variable {base query : Formula} {stated : List Formula} {v : String → Bool}

/-- The symbols of formulas stated in front are listed first. -/
theorem symbols_ofFormulas_stated (stated : List Formula) (base query : Formula)
    (given : Assignment) :
    (ofFormulas (.all (stated ++ [base])) query given).symbols =
      (base.occurrences ++ query.occurrences).foldl Formula.addSymbol
        ((Formula.occurrencesAll stated).foldl Formula.addSymbol []) := by
  rw [symbols_ofFormulas, ← List.foldl_append, Formula.all, Formula.occurrences,
    Formula.occurrencesAll_eq_flatMap, Formula.occurrencesAll_eq_flatMap, List.flatMap_append,
    List.flatMap_singleton, List.append_assoc]

/-- Symbols that are not fixed are listed in the same order, whether the fixed values are
    stated in front or not. -/
theorem filter_symbols_stated (hstated : fixed.StatedBy stated) (given : Assignment) :
    ((ofFormulas (.all (stated ++ [base])) query given).symbols.filter
        fun name => (fixed.get? name).isNone) =
      (ofFormulas base query fixed).symbols.filter fun name => (fixed.get? name).isNone := by
  rw [symbols_ofFormulas_stated, symbols_ofFormulas]
  apply Formula.filter_foldl_addSymbol
  rw [List.filter_nil, List.filter_eq_nil_iff]
  intro name hname
  obtain ⟨value, hvalue⟩ := Option.isSome_iff_exists.mp
    (hstated.mem_occurrences_iff.mp (by simpa [Formula.mem_foldl_addSymbol] using hname))
  simp [hvalue]

variable (hstated : fixed.StatedBy stated)
  (hbound : ∀ name, (fixed.get? name).isSome = true → (m.get? name).isSome = true)
  (hv : m.Agrees v)

include hstated hbound hv

/-- Where the fixed symbols have their values, stating these makes no difference. -/
theorem settled?_stated_of_agrees (h : fixed.Agrees v) :
    (ofFormulas (.all (stated ++ [base])) query ∅).settled? m =
      (ofFormulas base query fixed).settled? m := by
  refine settled?_congr ?_ rfl
  change (Formula.all (stated ++ [base])).evaluate m = base.evaluate m
  rw [Formula.all, Formula.evaluate, hstated.evaluateAll_eq hbound hv,
    if_pos (hstated.truthAll_iff.mpr h)]

/-- Elsewhere nothing is settled once they are stated. -/
theorem settled?_stated_of_not_agrees (h : ¬ fixed.Agrees v) :
    (ofFormulas (.all (stated ++ [base])) query ∅).settled? m = none := by
  have hbase : (ofFormulas (.all (stated ++ [base])) query ∅).base.evaluate m = .ok false := by
    change (Formula.all (stated ++ [base])).evaluate m = .ok false
    rw [Formula.all, Formula.evaluate, hstated.evaluateAll_eq hbound hv,
      if_neg (mt hstated.truthAll_iff.mp h)]
  rw [settled?_eq_none_iff, row, hbase]

end TruthTable

open TruthTable

/-- To fix symbols is to state their values, in any order, in front of the base: the
    entailment has the same result, also where that is an error. -/
theorem entails_eq_entails_stated (base query : Formula) {fixed : Assignment}
    {stated : List Formula} (hstated : fixed.StatedBy stated) :
    entails base query fixed = entails (.all (stated ++ [base])) query ∅ := by
  let t := ofFormulas base query fixed
  let u := ofFormulas (.all (stated ++ [base])) query ∅
  have hoccurrences : t.occurrences ⊆ u.symbols := by
    rw [symbols_ofFormulas_stated]
    intro name hname
    exact Formula.mem_foldl_addSymbol.mpr (.inr hname)
  have hbound : ∀ {given m}, m ∈ completionsFrom given u.symbols ∅ →
      ∀ name, (fixed.get? name).isSome = true → (m.get? name).isSome = true := by
    intro given m hm name hname
    apply isSome_get?_of_mem_completionsFrom hm (.inl _)
    rw [symbols_ofFormulas_stated, Formula.mem_foldl_addSymbol, Formula.mem_foldl_addSymbol]
    exact .inl (.inr (hstated.mem_occurrences_iff.mpr hname))
  have hsame : t.completions.findSome? t.settled? = u.completions.findSome? u.settled? := by
    calc t.completions.findSome? t.settled?
      _ = (completionsFrom fixed (t.symbols.filter fun name => (fixed.get? name).isNone)
            fixed).findSome? t.settled? :=
          findSome?_completionsFrom_free (fun _ _ => settled?_eq_of_sameOn)
            (occurrences_subset_symbols base query fixed)
      _ = (completionsFrom fixed (u.symbols.filter fun name => (fixed.get? name).isNone)
            fixed).findSome? t.settled? := by rw [filter_symbols_stated hstated]
      _ = (completionsFrom fixed u.symbols ∅).findSome? t.settled? :=
          (findSome?_completionsFrom_free (fun _ _ => settled?_eq_of_sameOn) hoccurrences).symm
      _ = (completionsFrom fixed u.symbols ∅).findSome? u.settled? := by
          refine findSome?_congr fun m hm => ?_
          obtain ⟨v, hv, hagrees⟩ := exists_agrees_of_mem_completionsFrom hm
            ⟨_, Assignment.agrees_empty _, fixed.agrees_valuation⟩
          exact (settled?_stated_of_agrees hstated (hbound hm) hv hagrees).symm
      _ = u.completions.findSome? u.settled? := by
          refine findSome?_completionsFrom_fixed (nodup_symbols_ofFormulas _ _ _) ?_
          intro m hm name _ value hvalue hne
          refine settled?_stated_of_not_agrees hstated (hbound hm) m.agrees_valuation fun h => ?_
          apply hne
          rw [m.agrees_valuation.get?_eq (hbound hm name (by rw [hvalue]; rfl)), h name value hvalue]
  change t.check = u.check
  rw [check_eq, check_eq, hsame]

/-- What is fixed need not occur in the formulas, and the error of an exclusive or without
    its second operand is not hidden by the completions that come first on the other side. -/
theorem entails_eq_entails_stated_error :
    let base : Formula := .apply .disj [.symbol "P", .apply .xor [.symbol "Q"]]
    let fixed := Assignment.ofList [("P", false), ("Z", true)]
    let stated : List Formula := [.negate (.symbol "P"), .symbol "Z"]
    fixed.StatedBy stated ∧
      entails base (.symbol "Q") fixed = entails (.all (stated ++ [base])) (.symbol "Q") ∅ ∧
      entails base (.symbol "Q") fixed = .error (.missingOperand .xor 1) ∧
      entails base (.symbol "Q") ∅ = .ok false := by
  intro base fixed stated
  have hstated : fixed.StatedBy stated := Assignment.statedBy_of_perm (.swap _ _ _)
  exact ⟨hstated, entails_eq_entails_stated base (.symbol "Q") hstated, rfl, rfl⟩

end Propositional
