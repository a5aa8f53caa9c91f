import Propositional.Text.Blank
import Propositional.Text.Word

namespace Propositional.Text

/-- A text begins with the characters that satisfy a test, as far as they reach, and the first one
    behind them fails it. -/
theorem split_takeWhile (p : Char → Bool) (cs : List Char) :
    cs = cs.takeWhile p ++ cs.dropWhile p ∧ (∀ c ∈ cs.takeWhile p, p c = true) ∧
      ∀ c ∈ (cs.dropWhile p).head?, p c = false := by
  refine ⟨List.takeWhile_append_dropWhile.symm, List.all_eq_true.mp List.all_takeWhile, ?_⟩
  intro c hc
  have hhead := List.head?_dropWhile_not p cs
  rw [Option.mem_def.mp hc] at hhead
  simpa using hhead

/-- The tokens of a text as lists of characters. -/
def runs (cs : List Char) : List (List Char) :=
  (cs.splitOnP isBlank).filter (· != [])

theorem tokens_eq_map_runs (text : String) : tokens text = (runs text.toList).map String.ofList :=
  rfl

@[simp] theorem runs_nil : runs [] = [] := rfl

/-- A blank in front belongs to no token. -/
theorem runs_cons_of_isBlank {c : Char} (hc : isBlank c = true) (cs : List Char) :
    runs (c :: cs) = runs cs := by
  have hsplit := List.splitOnP_append_cons (p := isBlank) [] cs hc
  rw [List.nil_append, List.splitOnP_nil] at hsplit
  rw [runs, hsplit]
  rfl

theorem runs_append_of_isBlank {blanks : List Char} (h : ∀ c ∈ blanks, isBlank c = true)
    (cs : List Char) : runs (blanks ++ cs) = runs cs := by
  induction blanks with
  | nil => rfl
  | cons c blanks ih =>
    rw [List.cons_append, runs_cons_of_isBlank (h c (by simp))]
    exact ih fun d hd => h d (by simp [hd])

/-- A token ends where the text does or where a blank stands. -/
theorem runs_append {run rest : List Char} (hne : run ≠ [])
    (hrun : ∀ c ∈ run, isBlank c = false) (hrest : ∀ c ∈ rest.head?, isBlank c = true) :
    runs (run ++ rest) = run :: runs rest := by
  cases rest with
  | nil =>
    rw [List.append_nil, runs, List.splitOnP_eq_singleton hrun]
    simp [hne]
  | cons c rest =>
    have hc : isBlank c = true := hrest c rfl
    rw [runs, List.splitOnP_append_cons_of_forall_mem hrun c hc, runs_cons_of_isBlank hc]
    simp [runs, hne]

/-- A character that is no blank begins a token. -/
theorem exists_runs_cons_eq {c : Char} (hc : isBlank c = false) (cs : List Char) :
    ∃ run rest, c :: cs = run ++ rest ∧ run ≠ [] ∧ (∀ d ∈ run, isBlank d = false) ∧
      (∀ d ∈ rest.head?, isBlank d = true) ∧ runs (c :: cs) = run :: runs rest := by
  let run := (c :: cs).takeWhile fun d => !isBlank d
  let rest := (c :: cs).dropWhile fun d => !isBlank d
  obtain ⟨hsplit, hrun, hrest⟩ := split_takeWhile (fun d => !isBlank d) (c :: cs)
  have hne : run ≠ [] := by simp [run, hc]
  have hrun : ∀ d ∈ run, isBlank d = false := by simpa using hrun
  have hrest : ∀ d ∈ rest.head?, isBlank d = true := by simpa using hrest
  refine ⟨run, rest, hsplit, hne, hrun, hrest, ?_⟩
  rw [hsplit]
  exact runs_append hne hrun hrest

/-- What stands around the first token of a text: blanks in front of it, and
    behind it nothing or a blank and the other tokens. -/
theorem exists_eq_append_of_runs_eq_cons {cs run : List Char} {others : List (List Char)}
    (h : runs cs = run :: others) :
    ∃ blanks rest, cs = blanks ++ (run ++ rest) ∧ (∀ c ∈ blanks, isBlank c = true) ∧ run ≠ [] ∧
      (∀ c ∈ run, isBlank c = false) ∧ (∀ c ∈ rest.head?, isBlank c = true) ∧
      runs rest = others := by
  induction cs with
  | nil => cases h
  | cons c cs ih =>
    cases hc : isBlank c with
    | true =>
      rw [runs_cons_of_isBlank hc] at h
      obtain ⟨blanks, rest, rfl, hblanks, hrun⟩ := ih h
      exact ⟨c :: blanks, rest, rfl, by simpa [hc] using hblanks, hrun⟩
    | false =>
      obtain ⟨first, rest, hsplit, hne, hfirst, hrest, hruns⟩ := exists_runs_cons_eq hc cs
      rw [hruns] at h
      obtain ⟨rfl, hothers⟩ := List.cons.inj h
      exact ⟨[], rest, hsplit, nofun, hne, hfirst, hrest, hothers⟩

theorem isBlank_of_runs_eq_nil {cs : List Char} (h : runs cs = []) :
    ∀ c ∈ cs, isBlank c = true := by
  induction cs with
  | nil => nofun
  | cons c cs ih =>
    cases hc : isBlank c with
    | true =>
      rw [runs_cons_of_isBlank hc] at h
      simpa [hc] using ih h
    | false =>
      obtain ⟨first, rest, _, _, _, _, hruns⟩ := exists_runs_cons_eq hc cs
      rw [hruns] at h
      cases h

theorem isWordChar_iff {c : Char} :
    isWordChar c = true ↔ 65 ≤ c.toNat ∧ c.toNat ≤ 90 ∨ 97 ≤ c.toNat ∧ c.toNat ≤ 122 ∨
      48 ≤ c.toNat ∧ c.toNat ≤ 57 ∨ c = '_' := by
  change ((decide (c.val ≥ 65 ∧ c.val ≤ 90) || decide (c.val ≥ 97) && decide (c.val ≤ 122) ||
    decide (c.val ≥ 48) && decide (c.val ≤ 57)) || c == '_') = true ↔ _
  simp only [ge_iff_le, UInt32.le_iff_toNat_le, Bool.or_eq_true, Bool.and_eq_true,
    decide_eq_true_eq, beq_iff_eq, or_assoc]
  rfl

/-- No blank belongs to a word. -/
theorem isWordChar_of_isBlank {c : Char} (hc : isBlank c = true) : isWordChar c = false := by
  rw [Bool.eq_false_iff]
  intro hword
  simp only [isBlank, Bool.or_eq_true, Bool.and_eq_true, decide_eq_true_eq, List.contains_eq_mem,
    List.mem_cons, List.not_mem_nil, or_false] at hc
  rcases isWordChar_iff.mp hword with h | h | h | rfl
  · omega
  · omega
  · omega
  · revert hc
    decide

theorem isBlank_of_isWordChar {c : Char} (hc : isWordChar c = true) : isBlank c = false := by
  cases hblank : isBlank c with
  | false => rfl
  | true => exact absurd hc (by simp [isWordChar_of_isBlank hblank])

end Propositional.Text
