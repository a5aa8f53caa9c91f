import Propositional.Proofs.Formula.Evaluation
import Propositional.Proofs.Formula.Validation

namespace Propositional.Formula

variable {a : Assignment} {v : String → Bool}

theorem exists_of_mem_visitedUntil {value : Bool} {fs : List Formula} {g : Formula}
    (hg : g ∈ visitedUntil v value fs) : ∃ f ∈ fs, g ∈ f.visited v := by
  induction fs with
  | nil => cases hg
  | cons f fs ih =>
    rw [visitedUntil, List.mem_append] at hg
    rcases hg with hg | hg
    · exact ⟨f, by simp, hg⟩
    · split at hg
      · cases hg
      · obtain ⟨h, hh, hg⟩ := ih hg
        exact ⟨h, by simp [hh], hg⟩

theorem exists_of_mem_visited_pair {f g h : Formula} {fs second : List Formula}
    (hsecond : second ⊆ h.visited v) (hg : g ∈ f.visited v ++ second) :
    ∃ k ∈ f :: h :: fs, g ∈ k.visited v := by
  rcases List.mem_append.mp hg with hg | hg
  · exact ⟨f, by simp, hg⟩
  · exact ⟨h, by simp, hsecond hg⟩

/-- Behind an application, evaluation comes only to what it comes to in one of
    the operands. -/
theorem exists_of_mem_visited_apply {c : Connective} {operands : List Formula} {g : Formula}
    (hg : g ∈ (apply c operands).visited v) :
    g = apply c operands ∨ ∃ f ∈ operands, g ∈ f.visited v := by
  cases c with
  | conj =>
    rw [visited] at hg
    exact (List.mem_cons.mp hg).imp_right exists_of_mem_visitedUntil
  | disj =>
    rw [visited] at hg
    exact (List.mem_cons.mp hg).imp_right exists_of_mem_visitedUntil
  | neg =>
    cases operands with
    | nil => exact .inl (List.mem_singleton.mp hg)
    | cons f fs => exact (List.mem_cons.mp hg).imp_right fun hg => ⟨f, by simp, hg⟩
  | imp =>
    rcases operands with _ | ⟨f, _ | ⟨h, fs⟩⟩
    · exact .inl (List.mem_singleton.mp hg)
    · exact .inl (List.mem_singleton.mp hg)
    · refine (List.mem_cons.mp hg).imp_right (exists_of_mem_visited_pair ?_)
      split <;> simp
  | iff =>
    rcases operands with _ | ⟨f, _ | ⟨h, fs⟩⟩
    · exact .inl (List.mem_singleton.mp hg)
    · exact .inl (List.mem_singleton.mp hg)
    · exact (List.mem_cons.mp hg).imp_right (exists_of_mem_visited_pair (List.Subset.refl _))
  | xor =>
    rcases operands with _ | ⟨f, _ | ⟨h, fs⟩⟩
    · exact .inl (List.mem_singleton.mp hg)
    · exact .inl (List.mem_singleton.mp hg)
    · exact (List.mem_cons.mp hg).imp_right (exists_of_mem_visited_pair (List.Subset.refl _))
  | unknown word => exact .inl (List.mem_singleton.mp hg)

theorem mem_subformulas_of_mem_visited {f g : Formula} (hg : g ∈ f.visited v) :
    g ∈ f.subformulas := by
  induction f with
  | symbol name => simpa [visited] using hg
  | apply c operands ih =>
    rw [mem_subformulas_apply]
    rcases exists_of_mem_visited_apply hg with hg | ⟨f, hf, hg⟩
    · exact .inl hg
    · exact .inr ⟨f, hf, ih f hf hg⟩

/-- Evaluation comes to an exclusive or that lacks an operand. -/
def Stumbles (v : String → Bool) (f : Formula) : Prop :=
  ∃ g ∈ f.visited v, g.isShortXor = true

instance (v : String → Bool) (f : Formula) : Decidable (f.Stumbles v) :=
  inferInstanceAs (Decidable (∃ g ∈ f.visited v, g.isShortXor = true))

theorem XorsPaired.not_stumbles {f : Formula} (h : f.XorsPaired) (v : String → Bool) :
    ¬ f.Stumbles v := by
  rintro ⟨g, hg, hshort⟩
  rw [h g (mem_subformulas_of_mem_visited hg)] at hshort
  cases hshort

theorem stumbles_negate_iff {f : Formula} : f.negate.Stumbles v ↔ f.Stumbles v := by
  simp [Stumbles, negate, visited, isShortXor]

/-- In a well-formed formula all of whose symbols have a value, nothing but an
    exclusive or that lacks an operand keeps a subformula from being evaluated. -/
theorem fault?_eq_none {f g : Formula} (hf : f.check = .ok ())
    (hbound : ∀ name ∈ f.occurrences, (a.get? name).isSome = true) (hg : g ∈ f.subformulas)
    (hshort : g.isShortXor = false) : g.fault? a = none := by
  have hright := check_eq_ok_of_mem hf hg
  cases g with
  | symbol name =>
    have hname := hbound name (mem_occurrences_iff.mpr hg)
    simp [fault?, hname]
  | apply c operands =>
    cases c with
    | conj => rfl
    | disj => rfl
    | neg =>
      have hlength : operands.length = 1 := by simpa [offence?, Connective.arity?] using hright
      simp [fault?, Connective.required, hlength]
    | imp =>
      have hlength : operands.length = 2 := by simpa [offence?, Connective.arity?] using hright
      simp [fault?, Connective.required, hlength]
    | iff =>
      have hlength : operands.length = 2 := by simpa [offence?, Connective.arity?] using hright
      simp [fault?, Connective.required, hlength]
    | xor =>
      have hlength : ¬ operands.length < 2 := by
        intro h
        rw [isShortXor_iff.mpr ⟨operands, rfl, h⟩] at hshort
        cases hshort
      simp [fault?, Connective.required, hlength]
    | unknown word => simp [offence?] at hright

theorem fault?_short_xor {operands : List Formula} (h : operands.length < 2) :
    fault? a (apply .xor operands) = some (.missingOperand .xor operands.length) := by
  simp [fault?, Connective.required, h]

/-- Evaluation that comes to no exclusive or without two operands succeeds and
    gives the truth value. -/
theorem evaluate_eq_ok {f : Formula} (hf : f.check = .ok ())
    (hbound : ∀ name ∈ f.occurrences, (a.get? name).isSome = true) (h : a.Agrees v)
    (hsmooth : ¬ f.Stumbles v) : f.evaluate a = .ok (f.truth v) := by
  have hnone : (f.visited v).findSome? (fault? a) = none := by
    rw [List.findSome?_eq_none_iff]
    intro g hg
    apply fault?_eq_none hf hbound (mem_subformulas_of_mem_visited hg)
    cases hshort : g.isShortXor with
    | false => rfl
    | true => exact absurd ⟨g, hg, hshort⟩ hsmooth
  rw [evaluate_eq_outcome h, outcome, hnone, Option.elim_none]

/-- Evaluation that stumbles fails, and reports an exclusive or that it has come
    to without two operands. -/
theorem evaluate_eq_error {f : Formula} (hf : f.check = .ok ())
    (hbound : ∀ name ∈ f.occurrences, (a.get? name).isSome = true) (h : a.Agrees v)
    (hstumbles : f.Stumbles v) :
    ∃ operands, apply .xor operands ∈ f.subformulas ∧ operands.length < 2 ∧
      f.evaluate a = .error (.missingOperand .xor operands.length) := by
  obtain ⟨g, hg, hshort⟩ := hstumbles
  obtain ⟨operands, rfl, hlength⟩ := isShortXor_iff.mp hshort
  have hsome : ((f.visited v).findSome? (fault? a)).isSome = true :=
    List.findSome?_isSome_iff.mpr ⟨_, hg, by simp [fault?_short_xor hlength]⟩
  obtain ⟨e, he⟩ := Option.isSome_iff_exists.mp hsome
  obtain ⟨first, hfirst, hfault⟩ := List.exists_of_findSome?_eq_some he
  have hsub := mem_subformulas_of_mem_visited hfirst
  cases hkind : first.isShortXor with
  | false => simp [fault?_eq_none hf hbound hsub hkind] at hfault
  | true =>
    obtain ⟨found, rfl, hfound⟩ := isShortXor_iff.mp hkind
    rw [fault?_short_xor hfound] at hfault
    refine ⟨found, hsub, hfound, ?_⟩
    rw [evaluate_eq_outcome h, outcome, he, Option.elim_some, Option.some.inj hfault]

end Propositional.Formula
