import Mathlib.Data.List.Basic
import Mathlib.Data.List.TakeWhile
import Propositional.Text.Lines

namespace Propositional.Text

theorem splitOn_flatMap_lineFeed {pieces : List (List Char)} (h : ∀ piece ∈ pieces, '\n' ∉ piece) :
    (pieces.flatMap (· ++ ['\n'])).splitOn '\n' = pieces ++ [[]] := by
  induction pieces with
  | nil => rfl
  | cons piece pieces ih =>
    have hpiece : ∀ c ∈ piece, (c == '\n') = false := by
      intro c hc
      rw [beq_eq_false_iff_ne]
      rintro rfl
      exact h piece (by simp) hc
    have hothers := ih fun other hother => h other (by simp [hother])
    rw [List.splitOn_eq_splitOnP] at hothers ⊢
    rw [List.flatMap_cons, List.append_assoc, List.singleton_append,
      List.splitOnP_append_cons_of_forall_mem hpiece '\n' rfl, hothers, List.cons_append]

/-- Pieces without line feeds, each with a line feed behind it, are the lines of the text. -/
theorem lines_ofList_flatMap {pieces : List (List Char)} (h : ∀ piece ∈ pieces, '\n' ∉ piece) :
    lines (String.ofList (pieces.flatMap (· ++ ['\n']))) = pieces.map String.ofList := by
  rw [lines, String.toList_ofList, splitOn_flatMap_lineFeed h]
  simp

/-- No line has been begun and not ended: the text is empty or ends with a line feed. -/
def Finished (text : String) : Prop :=
  text = "" ∨ ∃ front, text = front ++ "\n"

def lineFeeds (text : String) : Nat :=
  text.toList.count '\n'

theorem length_splitOn (c : Char) (cs : List Char) : (cs.splitOn c).length = cs.count c + 1 := by
  induction cs with
  | nil => rfl
  | cons d cs ih =>
    rw [List.splitOn_cons_eq_if_modifyHead]
    split
    · rename_i heq
      simp [ih, beq_iff_eq.mp heq]
    · rename_i hne
      simp [ih, List.count_cons, hne]

theorem lines_empty : lines "" = [] := rfl

/-- Behind a line feed the lines of what follows begin. -/
theorem lines_lineFeed_append (front rest : String) :
    lines (front ++ "\n" ++ rest) =
      (front.toList.splitOn '\n').map String.ofList ++ lines rest := by
  have hsplit : (front ++ "\n" ++ rest).toList.splitOn '\n' =
      front.toList.splitOn '\n' ++ rest.toList.splitOn '\n' := by
    have hfeed : "\n".toList = ['\n'] := rfl
    rw [String.toList_append, String.toList_append, hfeed, List.append_assoc,
      List.singleton_append, List.splitOn_append_cons_self]
  have hne : rest.toList.splitOn '\n' ≠ [] := List.splitOn_ne_nil _ _
  simp only [lines, hsplit, List.getLast?_append_of_ne_nil _ hne]
  split
  · rw [List.dropLast_append_of_ne_nil hne, List.map_append]
  · rw [List.map_append]

theorem lines_lineFeed (front : String) :
    lines (front ++ "\n") = (front.toList.splitOn '\n').map String.ofList := by
  have hlines := lines_lineFeed_append front ""
  rw [String.append_empty] at hlines
  rw [hlines, lines_empty, List.append_nil]

/-- A finished text has its lines of its own, whatever is put behind it. -/
theorem Finished.lines_append {text : String} (h : Finished text) (rest : String) :
    lines (text ++ rest) = lines text ++ lines rest := by
  rcases h with rfl | ⟨front, rfl⟩
  · rw [String.empty_append, lines_empty, List.nil_append]
  · rw [lines_lineFeed_append, lines_lineFeed]

theorem Finished.length_lines {text : String} (h : Finished text) :
    (lines text).length = lineFeeds text := by
  rcases h with rfl | ⟨front, rfl⟩
  · rfl
  · rw [lines_lineFeed, List.length_map, length_splitOn, lineFeeds, String.toList_append,
      List.count_append]
    rfl

theorem stripTerminators_eq_self {line : String}
    (h : ∀ c ∈ line.toList, c ≠ '\r' ∧ c ≠ '\n') : stripTerminators line = line := by
  have hkept : (line.toList.reverse.dropWhile fun c => c == '\r' || c == '\n') =
      line.toList.reverse := by
    apply List.dropWhile_eq_self_iff.mpr
    intro hlength hfirst
    have hc := h _ (List.mem_reverse.mp (List.getElem_mem hlength))
    rw [Bool.or_eq_true, beq_iff_eq, beq_iff_eq] at hfirst
    exact hfirst.elim hc.1 hc.2
  rw [stripTerminators, hkept, List.reverse_reverse, String.ofList_toList]

end Propositional.Text
