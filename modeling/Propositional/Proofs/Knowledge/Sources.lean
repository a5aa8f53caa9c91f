import Propositional.Proofs.Knowledge.Fact
import Propositional.Proofs.Knowledge.Models

namespace Propositional

namespace Knowledge

/-- Knowledge that sources have built up from nothing, where every line of each
    could be read and nothing was left over on it. -/
inductive Sourced : Knowledge → Prop
  | empty : Sourced ∅
  | load {k : Knowledge} (text : String) (hk : Sourced k) (hread : (k.load text).failure? = none)
      (htrailing : (k.load text).trailing = []) : Sourced (k.load text).knowledge

/-- The value that is fixed for a word is what one of the rules states. Other
    names may be fixed too, but no well-formed formula contains them. -/
def Grounded (k : Knowledge) : Prop :=
  ∀ name value, Text.isWord name = true → k.fixed.get? name = some value →
    Formula.literal name value ∈ k.rules

theorem grounded_empty : Grounded ∅ := by
  intro name value _ hget
  cases hget

variable {k : Knowledge}

theorem Grounded.addRule (hk : k.Grounded) (rule : Formula) : (k.addRule rule).Grounded :=
  fun name value hname hget => List.mem_append_left [rule] (hk name value hname hget)

/-- A line that fixes a word adds the rule that grounds it, also where the word
    had another value before. -/
theorem Grounded.note_addRule {line : String} {r : Reading} (hk : k.Grounded)
    (hread : Formula.read line = .ok r) (htrailing : r.trailing? = none) :
    ((k.note line).addRule r.formula).Grounded := by
  unfold note
  split
  · rename_i fixedName fixedValue hfact
    intro name value hname hget
    change (k.fixed.insert fixedName fixedValue).get? name = some value at hget
    rw [Assignment.get?_insert] at hget
    split at hget
    · rename_i heq
      subst heq
      obtain rfl := Option.some.inj hget
      rw [← formula_eq_literal hfact hname hread htrailing]
      exact List.mem_append_right k.rules (List.mem_singleton.mpr rfl)
    · exact hk.addRule r.formula name value hname hget
  · exact hk.addRule r.formula

theorem loadLines_cons_of_isSkipped {number : Nat} {line : String} {lines : List String}
    (hskipped : isSkipped (Text.stripTerminators line) = true) :
    k.loadLines number (line :: lines) = k.loadLines (number + 1) lines := by
  simp only [loadLines, hskipped, if_true]

theorem loadLines_cons_of_error {number : Nat} {line : String} {lines : List String}
    {cause : ParseError} (hskipped : ¬ isSkipped (Text.stripTerminators line) = true)
    (hread : Formula.read (Text.stripTerminators line) = .error cause) :
    k.loadLines number (line :: lines) =
      ⟨k.note (Text.stripTerminators line), [], some ⟨number, cause⟩⟩ := by
  simp only [loadLines, hskipped, hread, Bool.false_eq_true, if_false]

theorem loadLines_cons_of_ok {number : Nat} {line : String} {lines : List String} {r : Reading}
    (hskipped : ¬ isSkipped (Text.stripTerminators line) = true)
    (hread : Formula.read (Text.stripTerminators line) = .ok r) :
    k.loadLines number (line :: lines) =
      let later := ((k.note (Text.stripTerminators line)).addRule r.formula).loadLines
        (number + 1) lines
      { later with trailing := r.trailing?.toList ++ later.trailing } := by
  simp only [loadLines, hskipped, hread, Bool.false_eq_true, if_false]

theorem Grounded.loadLines {number : Nat} {lines : List String} (hk : k.Grounded)
    (hread : (k.loadLines number lines).failure? = none)
    (htrailing : (k.loadLines number lines).trailing = []) :
    (k.loadLines number lines).knowledge.Grounded := by
  induction lines generalizing k number with
  | nil => exact hk
  | cons line lines ih =>
    by_cases hskipped : isSkipped (Text.stripTerminators line) = true
    · rw [loadLines_cons_of_isSkipped hskipped] at hread htrailing ⊢
      exact ih hk hread htrailing
    · cases hline : Formula.read (Text.stripTerminators line) with
      | error cause =>
        rw [loadLines_cons_of_error hskipped hline] at hread
        cases hread
      | ok reading =>
        rw [loadLines_cons_of_ok hskipped hline] at hread htrailing ⊢
        obtain ⟨hreading, hlater⟩ := List.append_eq_nil_iff.mp htrailing
        exact ih (hk.note_addRule hline (Option.toList_eq_nil_iff.mp hreading)) hread hlater

theorem Sourced.grounded (hk : k.Sourced) : k.Grounded := by
  induction hk with
  | empty => exact grounded_empty
  | load text _ hread htrailing ih => exact ih.loadLines hread htrailing

variable {v : String → Bool}

/-- Where the rules are true, fixing the fixed words changes nothing. -/
theorem Grounded.completedBy_eq (hk : k.Grounded) (hv : k.base.truth v = true) {name : String}
    (hname : Text.isWord name = true) : k.fixed.completedBy v name = v name := by
  cases hget : k.fixed.get? name with
  | none => exact Assignment.completedBy_of_get?_eq_none v hget
  | some value =>
    have hrule := Formula.truth_all_iff.mp hv _ (hk name value hname hget)
    rw [Formula.truth_literal_iff.mp hrule, Assignment.agrees_completedBy k.fixed v name value hget]

theorem Grounded.truth_completedBy (hk : k.Grounded) (hv : k.base.truth v = true) {f : Formula}
    (hf : f.check = .ok ()) : f.truth (k.fixed.completedBy v) = f.truth v :=
  Formula.truth_congr fun _ hname =>
    hk.completedBy_eq hv (Formula.isWord_of_check hf (Formula.mem_occurrences_iff.mp hname))

/-- What the rules imply about a formula they imply already where the fixed
    symbols have their values. -/
theorem Grounded.implies_iff (hk : k.Grounded) (hbase : k.base.check = .ok ()) {f : Formula}
    (hf : f.check = .ok ()) {value : Bool} :
    (∀ v, k.fixed.Agrees v → k.base.truth v = true → f.truth v = value) ↔
      ∀ v, Assignment.Agrees ∅ v → k.base.truth v = true → f.truth v = value := by
  constructor
  · intro h v _ hv
    have hcompleted := h (k.fixed.completedBy v) (k.fixed.agrees_completedBy v)
    rw [hk.truth_completedBy hv hbase, hk.truth_completedBy hv hf] at hcompleted
    exact hcompleted hv
  · intro h v _ hv
    exact h v (Assignment.agrees_empty v) hv

/-- The fixed symbols of knowledge that was loaded from sources save only work:
    without them the same is decided. -/
theorem Sourced.judge_eq_of_nothing_fixed {s : Formula} (hk : k.Sourced) (hcheck : k.check = .ok ())
    (hpaired : ∀ rule ∈ k.rules, rule.XorsPaired) (hs : s.check = .ok ())
    (hspaired : s.XorsPaired) :
    ∃ holds fails, entails k.base s ∅ = .ok holds ∧ entails k.base s.negate ∅ = .ok fails ∧
      k.judge s = .ok ⟨holds, fails⟩ := by
  have hbase : k.base.check = .ok () := mapError_eq_ok_iff.mp hcheck
  have hbasePaired := base_xorsPaired_iff.mpr hpaired
  obtain ⟨holds, fails, hholds, hfails, hiffHolds, hiffFails⟩ :=
    Decision.exists_reach_eq_ok hbase hs hbasePaired hspaired ∅
  obtain ⟨fixedHolds, fixedFails, hfixedHolds, hfixedFails, hiffFixedHolds, hiffFixedFails⟩ :=
    Decision.exists_reach_eq_ok hbase hs hbasePaired hspaired k.fixed
  have hsameHolds : fixedHolds = holds := by
    rw [Bool.eq_iff_iff, hiffHolds, hiffFixedHolds, hk.grounded.implies_iff hbase hs]
  have hsameFails : fixedFails = fails := by
    rw [Bool.eq_iff_iff, hiffFails, hiffFixedFails, hk.grounded.implies_iff hbase hs]
  refine ⟨holds, fails, hholds, hfails, ?_⟩
  rw [judge_eq hs, Decision.reach_eq_ok hfixedHolds hfixedFails, hsameHolds, hsameFails]
  rfl

/-- A second source may fix the opposite of what the first one fixed, and a line
    may fix what is no symbol. -/
theorem judge_eq_of_nothing_fixed_overridden :
    let first := (∅ : Knowledge).load "P\n(if P Q)"
    let k := (first.knowledge.load "(not P)\n(and)").knowledge
    let s := Formula.symbol "Q"
    k.Sourced ∧ k.fixed.get? "P" = some false ∧ k.fixed.get? "(and)" = some true ∧
      k.check = .ok () ∧ (∀ rule ∈ k.rules, rule.XorsPaired) ∧ s.check = .ok () ∧ s.XorsPaired ∧
      entails k.base s ∅ = .ok true ∧ entails k.base s.negate ∅ = .ok true ∧
      k.judge s = .ok ⟨true, true⟩ := by
  intro first k s
  have hk : k.Sourced :=
    .load _ (.load _ .empty (by decide +kernel) (by decide +kernel)) (by decide +kernel)
      (by decide +kernel)
  have hcheck : k.check = .ok () := by decide +kernel
  have hpaired : ∀ rule ∈ k.rules, rule.XorsPaired := by decide +kernel
  have hspaired : s.XorsPaired := by decide
  have hjudge : k.judge s = .ok ⟨true, true⟩ := by decide +kernel
  obtain ⟨holds, fails, hholds, hfails, heq⟩ :=
    hk.judge_eq_of_nothing_fixed hcheck hpaired (s := s) rfl hspaired
  rw [hjudge, Except.ok.injEq] at heq
  obtain ⟨rfl, rfl⟩ := Decision.mk.inj heq
  exact ⟨hk, by decide +kernel, by decide +kernel, hcheck, hpaired, rfl, hspaired, hholds, hfails,
    hjudge⟩

end Knowledge

end Propositional
