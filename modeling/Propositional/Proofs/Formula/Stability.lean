import Propositional.Proofs.Formula.Locality
import Propositional.Proofs.Formula.Stumbling
import Propositional.Proofs.Formula.Symbols

namespace Propositional

/-- A second assignment keeps the values of the first one. It may have values for further
    symbols. -/
def Assignment.ExtendedBy (a b : Assignment) : Prop :=
  ∀ name value, a.get? name = some value → b.get? name = some value

theorem Assignment.ExtendedBy.agrees {a b : Assignment} {v : String → Bool} (h : a.ExtendedBy b)
    (hb : b.Agrees v) : a.Agrees v := by
  intro name value hget
  exact hb name value (h name value hget)

namespace Formula

variable {a b : Assignment} {v : String → Bool} {f g : Formula} {name : String}

theorem eq_symbol_of_fault? (h : g.fault? a = some (.unboundSymbol name)) :
    g = symbol name ∧ a.get? name = none := by
  cases g with
  | symbol other =>
    rw [fault?] at h
    split at h
    · cases h
    · rename_i hunbound
      obtain rfl := EvalError.unboundSymbol.inj (Option.some.inj h)
      exact ⟨rfl, by simpa using hunbound⟩
  | apply c operands =>
    cases c <;> simp [fault?] at h

/-- Among the faults only a symbol without a value depends on the assignment, and an extension
    cannot add that one. -/
theorem fault?_eq_of_extendedBy (h : a.ExtendedBy b)
    (hbound : ∀ name, g.fault? a ≠ some (.unboundSymbol name)) : g.fault? b = g.fault? a := by
  cases g with
  | symbol name =>
    cases hget : a.get? name with
    | none => exact absurd (by simp [fault?, hget]) (hbound name)
    | some value => simp [fault?, hget, h name value hget]
  | apply c operands => cases c <;> rfl

/-- As long as the first fault is no symbol without a value, it stays the first one. -/
theorem findSome?_fault?_eq_of_extendedBy (h : a.ExtendedBy b) {fs : List Formula}
    (hbound : ∀ name, fs.findSome? (fault? a) ≠ some (.unboundSymbol name)) :
    fs.findSome? (fault? b) = fs.findSome? (fault? a) := by
  induction fs with
  | nil => rfl
  | cons g fs ih =>
    simp only [List.findSome?_cons] at hbound ⊢
    have hfirst : g.fault? b = g.fault? a := by
      apply fault?_eq_of_extendedBy h
      intro name hname
      exact hbound name (by rw [hname])
    rw [hfirst]
    cases hg : g.fault? a with
    | some e => rfl
    | none =>
      apply ih
      intro name hname
      exact hbound name (by rw [hg]; exact hname)

theorem evaluate_eq_ok_iff_of_agrees (h : a.Agrees v) {value : Bool} :
    f.evaluate a = .ok value ↔ (f.visited v).findSome? (fault? a) = none ∧ f.truth v = value := by
  rw [evaluate_eq_outcome h, outcome]
  cases (f.visited v).findSome? (fault? a) <;> simp

theorem evaluate_eq_error_iff_of_agrees (h : a.Agrees v) {e : EvalError} :
    f.evaluate a = .error e ↔ (f.visited v).findSome? (fault? a) = some e := by
  rw [evaluate_eq_outcome h, outcome]
  cases (f.visited v).findSome? (fault? a) <;> simp

/-- Unless it lacks the value of a symbol, evaluation gives the same under every extension. -/
theorem evaluate_eq_of_extendedBy (h : a.ExtendedBy b)
    (hbound : ∀ name, f.evaluate a ≠ .error (.unboundSymbol name)) :
    f.evaluate b = f.evaluate a := by
  -- A valuation that completes the larger assignment also completes the smaller one, so both
  -- evaluations come to the same subformulas.
  have hb : b.Agrees b.valuation := b.agrees_valuation
  have ha : a.Agrees b.valuation := h.agrees hb
  have hfaults : ∀ name,
      (f.visited b.valuation).findSome? (fault? a) ≠ some (.unboundSymbol name) := by
    intro name hname
    exact hbound name ((evaluate_eq_error_iff_of_agrees ha).mpr hname)
  rw [evaluate_eq_outcome ha, evaluate_eq_outcome hb, outcome, outcome,
    findSome?_fault?_eq_of_extendedBy h hfaults]

theorem unbound_of_evaluate_eq_error (h : f.evaluate a = .error (.unboundSymbol name)) :
    name ∈ f.occurrences ∧ a.get? name = none := by
  have hfirst := (evaluate_eq_error_iff_of_agrees a.agrees_valuation).mp h
  obtain ⟨g, hg, hfault⟩ := List.exists_of_findSome?_eq_some hfirst
  obtain ⟨rfl, hget⟩ := eq_symbol_of_fault? hfault
  exact ⟨mem_occurrences_iff.mpr (mem_subformulas_of_mem_visited hg), hget⟩

/-- Evaluation under part of the values settles a result once and for all. What it gives other than
    the lack of a symbol it gives under all extensions, a value being the truth value under every
    valuation that completes the assignment. What it lacks is a symbol of the formula that has no
    value, and no other symbols are looked at. None of this needs a well-formed formula. -/
theorem evaluate_settled_under_extension (f : Formula) :
    (∀ a b : Assignment, a.ExtendedBy b →
      (∀ name, f.evaluate a ≠ .error (.unboundSymbol name)) → f.evaluate b = f.evaluate a) ∧
    (∀ (a : Assignment) name, f.evaluate a = .error (.unboundSymbol name) →
      name ∈ f.symbols ∧ a.get? name = none) ∧
    (∀ a b : Assignment, a.SameOn f.symbols b → f.evaluate a = f.evaluate b) ∧
    ∀ (a : Assignment) (v : String → Bool) value, a.Agrees v → f.evaluate a = .ok value →
      f.truth v = value := by
  refine ⟨fun a b => evaluate_eq_of_extendedBy, ?_, ?_, ?_⟩
  · intro a name h
    obtain ⟨hname, hget⟩ := unbound_of_evaluate_eq_error h
    exact ⟨mem_symbols.mpr hname, hget⟩
  · intro a b h
    exact evaluate_congr (h.mono fun name hname => mem_symbols.mpr hname)
  · intro a v value h hvalue
    exact ((evaluate_eq_ok_iff_of_agrees h).mp hvalue).2

/-- A disjunction is settled by its first operand, although the third operand of that and both of
    the implication have no value; the implication alone lacks the first of them. An exclusive or
    that has only one operand is not mended by more values. -/
theorem evaluate_settled_under_extension_partial :
    let pair := apply .xor [symbol "P", symbol "Q", symbol "Z"]
    let step := apply .imp [symbol "R", symbol "S"]
    let f := apply .disj [pair, step]
    let short := apply .xor [symbol "R"]
    let a := Assignment.ofList [("P", true), ("Q", false)]
    let b := Assignment.ofList [("Q", false), ("R", true), ("P", true)]
    let other := Assignment.ofList [("X", true)]
    a.ExtendedBy b ∧ f.evaluate a = .ok true ∧ f.evaluate b = .ok true ∧
      (f.truth fun name => name == "P") = true ∧
      short.evaluate b = .error (.missingOperand .xor 1) ∧
      "R" ∈ step.symbols ∧ a.get? "R" = none ∧ step.evaluate a = step.evaluate other := by
  intro pair step f short a b other
  have hextended : a.ExtendedBy b := by
    intro name value hget
    have hentry := Assignment.get?_eq_some_iff.mp hget
    have hvalues : ∀ entry ∈ a.entries, b.get? entry.1 = some entry.2 := by decide
    exact hvalues _ hentry
  have hsettled : f.evaluate a = .ok true := rfl
  have hshort : short.evaluate a = .error (.missingOperand .xor 1) := rfl
  have hlacks : step.evaluate a = .error (.unboundSymbol "R") := rfl
  have hagrees : a.Agrees fun name => name == "P" := by
    intro name value hget
    have hentry := Assignment.get?_eq_some_iff.mp hget
    have hvalues : ∀ entry ∈ a.entries, (entry.1 == "P") = entry.2 := by decide
    exact hvalues _ hentry
  obtain ⟨hkept, _, _, htruth⟩ := evaluate_settled_under_extension f
  obtain ⟨_, hunbound, hlocal, _⟩ := evaluate_settled_under_extension step
  have hlater := hkept a b hextended (by simp [hsettled])
  have hshortLater := (evaluate_settled_under_extension short).1 a b hextended (by simp [hshort])
  obtain ⟨hname, hget⟩ := hunbound a "R" hlacks
  exact ⟨hextended, hsettled, hlater.trans hsettled, htruth a _ true hagrees hsettled,
    hshortLater.trans hshort, hname, hget, hlocal a other (by decide)⟩

end Formula

end Propositional
