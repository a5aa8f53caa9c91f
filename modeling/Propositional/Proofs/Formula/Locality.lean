import Propositional.Formula.Evaluation
import Propositional.Formula.Symbols
import Propositional.Proofs.Assignment

namespace Propositional.Formula

variable {a b : Assignment} {fs : List Formula} {g : Formula → Formula}

theorem evaluateAll_map_congr (h : ∀ f ∈ fs, (g f).evaluate a = f.evaluate b) :
    evaluateAll a (fs.map g) = evaluateAll b fs := by
  induction fs with
  | nil => rfl
  | cons f fs ih =>
    rw [List.map_cons, evaluateAll, evaluateAll, h f (by simp), ih fun k hk => h k (by simp [hk])]

theorem evaluateAny_map_congr (h : ∀ f ∈ fs, (g f).evaluate a = f.evaluate b) :
    evaluateAny a (fs.map g) = evaluateAny b fs := by
  induction fs with
  | nil => rfl
  | cons f fs ih =>
    rw [List.map_cons, evaluateAny, evaluateAny, h f (by simp), ih fun k hk => h k (by simp [hk])]

/-- Operands that evaluate like those in whose place they stand evaluate an application alike. -/
theorem evaluate_apply_map_congr {c : Connective} {operands : List Formula}
    (h : ∀ f ∈ operands, (g f).evaluate a = f.evaluate b) :
    (apply c (operands.map g)).evaluate a = (apply c operands).evaluate b := by
  cases c with
  | conj => rw [evaluate, evaluate, evaluateAll_map_congr h]
  | disj => rw [evaluate, evaluate, evaluateAny_map_congr h]
  | neg =>
    match operands with
    | [] => rfl
    | f :: fs => rw [List.map_cons, evaluate, evaluate, h f (by simp)]
  | imp =>
    match operands with
    | [] | [f] => rfl
    | f :: k :: fs =>
      rw [List.map_cons, List.map_cons, evaluate, evaluate, h f (by simp), h k (by simp)]
  | iff =>
    match operands with
    | [] | [f] => rfl
    | f :: k :: fs =>
      rw [List.map_cons, List.map_cons, evaluate, evaluate, h f (by simp), h k (by simp)]
  | xor =>
    match operands with
    | [] | [f] => rfl
    | f :: k :: fs =>
      rw [List.map_cons, List.map_cons, evaluate, evaluate, h f (by simp), h k (by simp)]
  | unknown word => rfl

/-- Two assignments under which the operands evaluate alike evaluate an application alike. -/
theorem evaluate_apply_congr {c : Connective} {operands : List Formula}
    (h : ∀ f ∈ operands, f.evaluate a = f.evaluate b) :
    (apply c operands).evaluate a = (apply c operands).evaluate b := by
  have hmap := evaluate_apply_map_congr (g := id) (c := c) h
  rwa [List.map_id] at hmap

/-- Evaluation asks an assignment for the symbols of the formula and for no others. Two that are
    the same on these give the same value or the same error. -/
theorem evaluate_congr {f : Formula} (h : a.SameOn f.occurrences b) :
    f.evaluate a = f.evaluate b := by
  induction f with
  | symbol name => rw [evaluate, evaluate, h name (List.mem_singleton.mpr rfl)]
  | apply c operands ih =>
    apply evaluate_apply_congr
    intro f hf
    apply ih f hf
    apply h.mono
    intro name hname
    rw [occurrences, occurrencesAll_eq_flatMap]
    exact List.mem_flatMap.mpr ⟨f, hf, hname⟩

end Propositional.Formula
