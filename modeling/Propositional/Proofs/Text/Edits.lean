import Propositional.Proofs.Text.Lines

namespace Propositional.Text

/-- A line that holds nothing but carriage returns, or a comment. -/
def IsInert (line : List Char) : Prop :=
  (∀ c ∈ line, c = '\r') ∨ line.head? = some '#'

/-- What has been done to a line of a text: it was kept, with carriage returns put behind it, it was
    empty and has been filled, or it was not there and has been put in. -/
inductive Edit
  | kept (line : List Char) (returns : Nat)
  | filled (line : List Char)
  | inserted (line : List Char)

namespace Edit

/-- The line as it was, if it was there. -/
def before? : Edit → Option (List Char)
  | kept line _ => some line
  | filled _ => some []
  | inserted _ => none

/-- The line as it is now. -/
def after : Edit → List Char
  | kept line returns => line ++ List.replicate returns '\r'
  | filled line => line
  | inserted line => line

def isInserted : Edit → Bool
  | inserted _ => true
  | _ => false

/-- Only inert lines are put in, and empty ones are filled with these only. -/
def IsInert : Edit → Prop
  | kept _ _ => True
  | filled line => Text.IsInert line
  | inserted line => Text.IsInert line

end Edit

/-- The lines as they were, as they stand between the line feeds of a text. What follows the last
    line feed counts as a line here, also if it is empty. -/
def linesBefore (edits : List Edit) : List (List Char) :=
  edits.filterMap Edit.before?

def linesAfter (edits : List Edit) : List (List Char) :=
  edits.map Edit.after

/-- Some edits that put in nothing but inert lines and carriage returns lead from one text to
    another. -/
structure Edited (edits : List Edit) (text other : String) : Prop where
  before : text.toList.splitOn '\n' = linesBefore edits
  after : other.toList.splitOn '\n' = linesAfter edits
  inert : ∀ edit ∈ edits, edit.IsInert

instance (line : List Char) : Decidable (IsInert line) :=
  decidable_of_iff (line.all (· == '\r') = true ∨ line.head? = some '#') (by simp [IsInert])

instance : DecidablePred Edit.IsInert
  | .kept _ _ => inferInstanceAs (Decidable True)
  | .filled line => inferInstanceAs (Decidable (IsInert line))
  | .inserted line => inferInstanceAs (Decidable (IsInert line))

theorem Edit.isSome_before? (edit : Edit) : edit.before?.isSome = !edit.isInserted := by
  cases edit <;> rfl

/-- Behind some edits there are as many lines more as have been put in. -/
theorem length_linesAfter (edits : List Edit) :
    (linesAfter edits).length = (linesBefore edits).length + edits.countP Edit.isInserted := by
  have hbefore : (linesBefore edits).length = edits.countP fun edit => !edit.isInserted := by
    simp only [linesBefore, List.length_filterMap_eq_countP, Edit.isSome_before?]
  rw [linesAfter, List.length_map, hbefore,
    List.length_eq_countP_add_countP Edit.isInserted, Nat.add_comm]
  simp only [Bool.not_eq_true, Bool.decide_eq_false]

/-- Each line that was there is found in the edits, behind those of the lines in front of it. -/
theorem exists_edit_of_linesBefore_eq {edits : List Edit} {before after : List (List Char)}
    {line : List Char} (h : linesBefore edits = before ++ line :: after) :
    ∃ front edit back, edits = front ++ edit :: back ∧ linesBefore front = before ∧
      edit.before? = some line := by
  obtain ⟨first, second, rfl, hfirst, hsecond⟩ := List.filterMap_eq_append_iff.mp h
  obtain ⟨skipped, edit, back, rfl, hskipped, hedit, _⟩ := List.filterMap_eq_cons_iff.mp hsecond
  have hnone : linesBefore skipped = [] := List.filterMap_eq_nil_iff.mpr hskipped
  refine ⟨first ++ skipped, edit, back, (List.append_assoc _ _ _).symm, ?_, hedit⟩
  rw [linesBefore, List.filterMap_append]
  exact (congrArg₂ _ hfirst hnone).trans (List.append_nil before)

theorem eq_empty_of_splitOn_eq {text : String} (h : text.toList.splitOn '\n' = [[]]) :
    text = "" := by
  have hjoin : ['\n'].intercalate (text.toList.splitOn '\n') = text.toList :=
    List.intercalate_splitOn '\n'
  rw [h] at hjoin
  exact String.toList_eq_nil_iff.mp hjoin.symm

/-- A text that is not empty has a first line: what stands in front of its first line feed. -/
theorem exists_lines_eq_cons {text : String} {first : List Char} {others : List (List Char)}
    (hne : text ≠ "") (h : text.toList.splitOn '\n' = first :: others) :
    ∃ later, lines text = String.ofList first :: later := by
  cases others with
  | nil =>
    have hfirst : [first].getLast? ≠ some [] := by
      rintro hlast
      obtain rfl := Option.some.inj hlast
      exact hne (eq_empty_of_splitOn_eq h)
    exact ⟨[], by rw [lines, h]; exact congrArg _ (if_neg hfirst)⟩
  | cons second others =>
    rw [lines, h]
    split
    · exact ⟨_, rfl⟩
    · exact ⟨_, rfl⟩

/-- Carriage returns at the end of a line are stripped however many there are. -/
theorem stripTerminators_append_returns (line : List Char) (returns : Nat) :
    stripTerminators (String.ofList (line ++ List.replicate returns '\r')) =
      stripTerminators (String.ofList line) := by
  have hreturns : ∀ c ∈ List.replicate returns '\r', (c == '\r' || c == '\n') = true := by
    intro c hc
    rw [List.eq_of_mem_replicate hc]
    rfl
  rw [stripTerminators, stripTerminators, String.toList_ofList, String.toList_ofList,
    List.reverse_append, List.reverse_replicate, List.dropWhile_append_of_pos hreturns]

theorem stripTerminators_returns {line : List Char} (h : ∀ c ∈ line, c = '\r') :
    stripTerminators (String.ofList line) = "" := by
  rw [List.eq_replicate_of_mem h, ← List.nil_append (List.replicate _ _),
    stripTerminators_append_returns]
  rfl

/-- What begins a line and is no terminator is not stripped. -/
theorem head?_stripTerminators {c : Char} {line : List Char} (hreturn : c ≠ '\r') (hfeed : c ≠ '\n') :
    (stripTerminators (String.ofList (c :: line))).toList.head? = some c := by
  have hkept : [c].dropWhile (fun d => d == '\r' || d == '\n') = [c] :=
    List.dropWhile_cons_of_neg (by simp [hreturn, hfeed])
  rw [stripTerminators, String.toList_ofList, String.toList_ofList, List.reverse_cons,
    List.dropWhile_append, hkept]
  split
  · rfl
  · rw [List.reverse_append]
    rfl

end Propositional.Text
