import Mathlib.Data.List.Forall2
import Propositional.Proofs.Knowledge.Sources

namespace Propositional.Knowledge

/-- The lines that are read, without the terminators at their ends. -/
def statements (lines : List String) : List String :=
  (lines.map Text.stripTerminators).filter fun line => !isSkipped line

/-- What each of some lines is read as. -/
def ReadAs (lines : List String) (readings : List Reading) : Prop :=
  List.Forall₂ (fun line r => Formula.read line = .ok r) lines readings

/-- Some fixed values with what a line fixes, in place of the value that its symbol had. -/
def noteFact (fixed : Assignment) (line : String) : Assignment :=
  match fact? line with
  | some (name, value) => fixed.insert name value
  | none => fixed

variable {k : Knowledge} {number : Nat} {line : String} {lines : List String}
  {readings : List Reading}

theorem statements_cons_of_isSkipped (h : isSkipped (Text.stripTerminators line) = true) :
    statements (line :: lines) = statements lines := by
  simp [statements, h]

theorem statements_cons_of_not_isSkipped (h : ¬ isSkipped (Text.stripTerminators line) = true) :
    statements (line :: lines) = Text.stripTerminators line :: statements lines := by
  simp [statements, h]

theorem note_eq (k : Knowledge) (line : String) : k.note line = ⟨k.rules, noteFact k.fixed line⟩ := by
  rw [note, noteFact]
  cases fact? line <;> rfl

/-- Lines that load to their end have been read, each that is not skipped. -/
theorem exists_readAs_of_failure?_eq_none (h : (k.loadLines number lines).failure? = none) :
    ∃ readings, ReadAs (statements lines) readings := by
  induction lines generalizing k number with
  | nil => exact ⟨[], .nil⟩
  | cons line lines ih =>
    by_cases hskipped : isSkipped (Text.stripTerminators line) = true
    · rw [loadLines_cons_of_isSkipped hskipped] at h
      rw [statements_cons_of_isSkipped hskipped]
      exact ih h
    · cases hline : Formula.read (Text.stripTerminators line) with
      | error cause =>
        rw [loadLines_cons_of_error hskipped hline] at h
        cases h
      | ok reading =>
        rw [loadLines_cons_of_ok hskipped hline] at h
        obtain ⟨readings, hreadings⟩ := ih h
        rw [statements_cons_of_not_isSkipped hskipped]
        exact ⟨reading :: readings, .cons hline hreadings⟩

/-- Lines that can be read add what they state behind the rules, fix what they fix from the
    first to the last, and report what was left over on them. -/
theorem loadLines_eq_of_readAs (h : ReadAs (statements lines) readings) (k : Knowledge)
    (number : Nat) :
    k.loadLines number lines =
      ⟨⟨k.rules ++ readings.map (·.formula), (statements lines).foldl noteFact k.fixed⟩,
        readings.filterMap (·.trailing?), none⟩ := by
  induction lines generalizing k number readings with
  | nil =>
    cases h
    simp [loadLines, statements]
  | cons line lines ih =>
    by_cases hskipped : isSkipped (Text.stripTerminators line) = true
    · rw [statements_cons_of_isSkipped hskipped] at h ⊢
      rw [loadLines_cons_of_isSkipped hskipped, ih h]
    · rw [statements_cons_of_not_isSkipped hskipped] at h ⊢
      cases h with
      | @cons _ reading _ readings hline hlines =>
        rw [loadLines_cons_of_ok hskipped hline, ih hlines]
        simp only [note_eq, addRule, List.append_assoc, List.singleton_append, List.map_cons,
          List.foldl_cons, List.filterMap_cons, Loaded.mk.injEq, true_and, and_true]
        cases reading.trailing? <;> rfl

/-- What some lines are read as, up to the first that cannot be read. -/
def leadingReadings : List String → List Reading
  | [] => []
  | line :: lines =>
    match Formula.read line with
    | .ok r => r :: leadingReadings lines
    | .error _ => []

/-- What is left over on the lines of a text, up to the first that cannot be read. -/
def leftOvers (text : String) : List TrailingInput :=
  (leadingReadings (statements (Text.lines text))).filterMap (·.trailing?)

theorem trailing_loadLines (k : Knowledge) (number : Nat) (lines : List String) :
    (k.loadLines number lines).trailing =
      (leadingReadings (statements lines)).filterMap (·.trailing?) := by
  induction lines generalizing k number with
  | nil => rfl
  | cons line lines ih =>
    by_cases hskipped : isSkipped (Text.stripTerminators line) = true
    · rw [loadLines_cons_of_isSkipped hskipped, statements_cons_of_isSkipped hskipped, ih]
    · rw [statements_cons_of_not_isSkipped hskipped, leadingReadings]
      cases hline : Formula.read (Text.stripTerminators line) with
      | error cause =>
        rw [loadLines_cons_of_error hskipped hline]
        rfl
      | ok reading =>
        rw [loadLines_cons_of_ok hskipped hline, List.filterMap_cons]
        simp only [ih]
        cases reading.trailing? <;> rfl

/-- What loading reports does not depend on the knowledge that it extends. -/
theorem trailing_load (k : Knowledge) (text : String) : (k.load text).trailing = leftOvers text :=
  trailing_loadLines k 1 (Text.lines text)

/-- What the lines of a text state, in their order, as far as they can be read. -/
def formulas (text : String) : List Formula :=
  (statements (Text.lines text)).filterMap fun line => (Formula.parse line).toOption

theorem ReadAs.filterMap_parse (h : ReadAs lines readings) :
    (lines.filterMap fun line => (Formula.parse line).toOption) = readings.map (·.formula) := by
  induction h with
  | nil => rfl
  | @cons line reading lines readings hline hlines ih =>
    have hparse : (Formula.parse line).toOption = some reading.formula := by
      rw [Formula.parse, hline]
      rfl
    simp only [List.filterMap_cons, hparse, ih, List.map_cons]

/-- Knowledge that texts, one after the other, have built up from nothing, where every
    line of each could be read, and what was left over on the lines. -/
inductive Gathered : List String → List TrailingInput → Knowledge → Prop
  | empty : Gathered [] [] ∅
  | load {texts : List String} {trailing : List TrailingInput} {k : Knowledge}
      (hk : Gathered texts trailing k) (text : String) (hread : (k.load text).failure? = none) :
      Gathered (texts ++ [text]) (trailing ++ (k.load text).trailing) (k.load text).knowledge

variable {texts : List String} {trailing : List TrailingInput}

theorem Gathered.load_of_nil (hk : Gathered texts [] k) (text : String)
    (hread : (k.load text).failure? = none) (htrailing : (k.load text).trailing = []) :
    Gathered (texts ++ [text]) [] (k.load text).knowledge := by
  simpa [htrailing] using hk.load text hread

/-- The rules are what the lines of the texts state, in their order. -/
theorem Gathered.rules_eq (hk : Gathered texts trailing k) :
    k.rules = texts.flatMap formulas := by
  induction hk with
  | empty => rfl
  | load _ text hread ih =>
    obtain ⟨readings, hreadings⟩ := exists_readAs_of_failure?_eq_none hread
    rw [Knowledge.load, loadLines_eq_of_readAs hreadings, List.flatMap_append,
      List.flatMap_singleton, ← ih, formulas, hreadings.filterMap_parse]

theorem Gathered.sourced (hk : Gathered texts trailing k) (htrailing : trailing = []) :
    k.Sourced := by
  induction hk with
  | empty => exact .empty
  | load _ text hread ih =>
    obtain ⟨hbefore, hlast⟩ := List.append_eq_nil_iff.mp htrailing
    exact .load text (ih hbefore) hread hlast

/-- Sources that were read in full are texts on whose lines nothing was left over. -/
theorem sourced_iff_gathered : k.Sourced ↔ ∃ texts, Gathered texts [] k := by
  constructor
  · intro hk
    induction hk with
    | empty => exact ⟨[], .empty⟩
    | load text _ hread htrailing ih =>
      obtain ⟨texts, hk⟩ := ih
      exact ⟨texts ++ [text], hk.load_of_nil text hread htrailing⟩
  · rintro ⟨texts, hk⟩
    exact hk.sourced rfl

end Propositional.Knowledge
