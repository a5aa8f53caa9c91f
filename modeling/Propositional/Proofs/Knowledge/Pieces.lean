import Propositional.Proofs.Knowledge.Loading
import Propositional.Proofs.Text.Lines

namespace Propositional

/-- The error of a line in front of which some more lines stand. -/
def LineError.behind (count : Nat) (failure : LineError) : LineError :=
  { failure with number := failure.number + count }

namespace Knowledge

namespace Loaded

/-- Goes on with the knowledge that was loaded, unless a line could not be read. -/
def andThen (first : Loaded) (second : Knowledge → Loaded) : Loaded :=
  match first.failure? with
  | some _ => first
  | none =>
    let later := second first.knowledge
    { later with trailing := first.trailing ++ later.trailing }

/-- What becomes of lines in front of which some more lines stand. -/
def behind (count : Nat) (loaded : Loaded) : Loaded :=
  { loaded with failure? := loaded.failure?.map (·.behind count) }

variable {first : Loaded} {second : Knowledge → Loaded}

theorem andThen_of_failure {failure : LineError} (h : first.failure? = some failure) :
    first.andThen second = first := by
  rw [andThen, h]

theorem andThen_of_no_failure (h : first.failure? = none) :
    first.andThen second = ⟨(second first.knowledge).knowledge,
      first.trailing ++ (second first.knowledge).trailing,
      (second first.knowledge).failure?⟩ := by
  rw [andThen, h]

/-- What was left over before stays in front. -/
theorem andThen_append_trailing (before : List TrailingInput) :
    ({ first with trailing := before ++ first.trailing } : Loaded).andThen second =
      { first.andThen second with trailing := before ++ (first.andThen second).trailing } := by
  obtain ⟨knowledge, trailing, failure?⟩ := first
  cases failure? with
  | some failure => rfl
  | none => simp only [andThen, List.append_assoc]

theorem andThen_nothing (first : Loaded) : (first.andThen fun k => ⟨k, [], none⟩) = first := by
  obtain ⟨knowledge, trailing, failure?⟩ := first
  cases failure? with
  | some failure => rfl
  | none => simp only [andThen, List.append_nil]

theorem error?_eq_none_iff {name : String} : first.error? name = none ↔ first.failure? = none := by
  rw [error?, Option.map_eq_none_iff]

theorem behind_append_trailing (loaded : Loaded) (before : List TrailingInput) (count : Nat) :
    ({ loaded with trailing := before ++ loaded.trailing } : Loaded).behind count =
      { loaded.behind count with trailing := before ++ (loaded.behind count).trailing } :=
  rfl

end Loaded

/-- The number of the first line is added to the number of each line that cannot be read. -/
theorem loadLines_add (k : Knowledge) (number count : Nat) (lines : List String) :
    k.loadLines (number + count) lines = (k.loadLines number lines).behind count := by
  induction lines generalizing k number with
  | nil => rfl
  | cons line lines ih =>
    by_cases hskipped : isSkipped (Text.stripTerminators line) = true
    · rw [loadLines_cons_of_isSkipped hskipped, loadLines_cons_of_isSkipped hskipped, ← ih,
        Nat.add_right_comm]
    · cases hline : Formula.read (Text.stripTerminators line) with
      | error cause =>
        simp only [loadLines_cons_of_error hskipped hline, Loaded.behind, LineError.behind,
          Option.map_some]
      | ok reading =>
        rw [loadLines_cons_of_ok hskipped hline, loadLines_cons_of_ok hskipped hline,
          Loaded.behind_append_trailing, ← ih, Nat.add_right_comm]

/-- Lines are loaded in two parts as they are loaded at once. The second part counts on from the
    lines of the first one, skipped ones included. -/
theorem loadLines_append (k : Knowledge) (number : Nat) (first second : List String) :
    k.loadLines number (first ++ second) =
      (k.loadLines number first).andThen fun k => k.loadLines (number + first.length) second := by
  induction first generalizing k number with
  | nil =>
    rw [List.nil_append, loadLines, Loaded.andThen_of_no_failure rfl, List.nil_append,
      List.length_nil, Nat.add_zero]
  | cons line lines ih =>
    have hcount : number + (line :: lines).length = number + 1 + lines.length := by
      rw [List.length_cons]
      omega
    rw [List.cons_append, hcount]
    by_cases hskipped : isSkipped (Text.stripTerminators line) = true
    · rw [loadLines_cons_of_isSkipped hskipped, loadLines_cons_of_isSkipped hskipped, ih]
    · cases hline : Formula.read (Text.stripTerminators line) with
      | error cause =>
        rw [loadLines_cons_of_error hskipped hline, loadLines_cons_of_error hskipped hline,
          Loaded.andThen_of_failure rfl]
      | ok reading =>
        rw [loadLines_cons_of_ok hskipped hline, loadLines_cons_of_ok hskipped hline,
          Loaded.andThen_append_trailing, ih]

/-- A text behind a finished one is loaded as a source of its own would be, on top of what the first
    one has brought, but its lines are counted on. -/
theorem load_append (k : Knowledge) {first : String} (h : Text.Finished first) (second : String) :
    k.load (first ++ second) =
      (k.load first).andThen fun k => (k.load second).behind (Text.lineFeeds first) := by
  simp only [load, h.lines_append, loadLines_append, h.length_lines, loadLines_add]

/-- Loads pieces of a source, each as a source of its own, up to the first that cannot be read to
    its end. The lines of that one are counted on from the pieces in front of it. -/
def loadPieces (k : Knowledge) : List String → Loaded
  | [] => ⟨k, [], none⟩
  | piece :: pieces =>
    (k.load piece).andThen fun k => (k.loadPieces pieces).behind (Text.lineFeeds piece)

/-- Where a source is cut makes no difference, as long as it is cut behind its line feeds. -/
theorem load_join (k : Knowledge) {pieces : List String}
    (h : ∀ piece ∈ pieces.dropLast, Text.Finished piece) :
    k.load (String.join pieces) = k.loadPieces pieces := by
  induction pieces generalizing k with
  | nil =>
    rw [String.join_nil, load, Text.lines_empty]
    rfl
  | cons piece pieces ih =>
    rw [String.join_cons, loadPieces]
    cases pieces with
    | nil =>
      -- The last piece need not be finished, so that `load_append` does not apply to it.
      rw [String.join_nil, String.append_empty]
      exact (k.load piece).andThen_nothing.symm
    | cons next pieces =>
      rw [List.dropLast_cons_cons] at h
      have hpieces : ∀ k : Knowledge, k.load (String.join (next :: pieces)) =
          k.loadPieces (next :: pieces) :=
        fun k => ih k fun other hother => h other (List.mem_cons_of_mem piece hother)
      simp only [load_append k (h piece List.mem_cons_self), hpieces]

/-- A source whose first part is finished is loaded as its two parts are, one after the other. If
    the first part cannot be read to its end, then its error and what it has brought are those of
    the whole source. If it can, then what the second part brings on top of the first is what the
    whole source brings, and a line of the second part that cannot be read is counted on from the
    line feeds of the first one. What holds of two parts holds of any number. -/
theorem load_in_pieces (k : Knowledge) (name : String) :
    (∀ first second, Text.Finished first →
      let whole := k.load (first ++ second)
      (∀ e, (k.load first).error? name = some e →
        whole.error? name = some e ∧ whole.knowledge = (k.load first).knowledge ∧
          whole.trailing = (k.load first).trailing) ∧
      ((k.load first).error? name = none →
        let later := (k.load first).knowledge.load second
        whole.error? name = later.failure?.map (fun failure =>
            .parse name (failure.number + Text.lineFeeds first) failure.cause) ∧
          whole.knowledge = later.knowledge ∧
          whole.trailing = (k.load first).trailing ++ later.trailing)) ∧
    ∀ pieces, (∀ piece ∈ pieces.dropLast, Text.Finished piece) →
      k.load (String.join pieces) = k.loadPieces pieces := by
  refine ⟨?_, fun pieces hpieces => k.load_join hpieces⟩
  intro first second hfirst whole
  have hwhole : whole = _ := k.load_append hfirst second
  constructor
  · intro e he
    obtain ⟨failure, hfailure, _⟩ := Option.map_eq_some_iff.mp he
    rw [Loaded.andThen_of_failure hfailure] at hwhole
    rw [hwhole]
    exact ⟨he, rfl, rfl⟩
  · intro hnone later
    rw [Loaded.andThen_of_no_failure (Loaded.error?_eq_none_iff.mp hnone)] at hwhole
    rw [hwhole]
    refine ⟨?_, rfl, rfl⟩
    simp only [Loaded.error?, Loaded.behind, Option.map_map]
    rfl

/-- A line that is skipped and one that stands empty are counted, a carriage return is not. What the
    knowledge had fixed before is fixed anew by the first part, and the second one ends in the
    middle of a line. -/
theorem load_in_pieces_counted_on :
    let k := ((∅ : Knowledge).load "P\n").knowledge
    let broken := "(or\n"
    let first := "# first\r\n(not P)\r\n"
    let second := "Q x\n\n(and P"
    let later := (k.load first).knowledge.load second
    let whole := k.load (first ++ second)
    Text.Finished broken ∧ Text.Finished first ∧
      ((k.load broken).error? "source" = some (.parse "source" 1 (.unexpectedEnd 3)) ∧
        (k.load (broken ++ second)).error? "source" =
          some (.parse "source" 1 (.unexpectedEnd 3))) ∧
      ((k.load first).error? "source" = none ∧ later.failure? = some ⟨3, .unexpectedEnd 6⟩ ∧
        whole.error? "source" = some (.parse "source" 5 (.unexpectedEnd 6)) ∧
        whole.knowledge = later.knowledge ∧ whole.knowledge.fixed.get? "P" = some false) ∧
      k.load (String.join [first, "Q x\n\n", "(and P"]) =
        k.loadPieces [first, "Q x\n\n", "(and P"] := by
  intro k broken first second later whole
  have hbroken : Text.Finished broken := .inr ⟨"(or", by decide⟩
  have hfirst : Text.Finished first := .inr ⟨"# first\r\n(not P)\r", by decide⟩
  have hmiddle : Text.Finished "Q x\n\n" := .inr ⟨"Q x\n", by decide⟩
  have hread : (k.load first).error? "source" = none := by decide +kernel
  have hlater : later.failure? = some ⟨3, .unexpectedEnd 6⟩ := by decide +kernel
  have hfeeds : Text.lineFeeds first = 2 := by decide
  have hstopped : (k.load broken).error? "source" =
      some (.parse "source" 1 (.unexpectedEnd 3)) := by decide +kernel
  obtain ⟨htwo, hmany⟩ := k.load_in_pieces "source"
  obtain ⟨hsame, _, _⟩ := (htwo broken second hbroken).1 _ hstopped
  obtain ⟨herror, hknowledge, _⟩ := (htwo first second hfirst).2 hread
  rw [hlater, Option.map_some, hfeeds] at herror
  refine ⟨hbroken, hfirst, ⟨hstopped, hsame⟩, ⟨hread, hlater, herror, hknowledge,
    by decide +kernel⟩, hmany _ ?_⟩
  intro piece hpiece
  obtain rfl | rfl : piece = first ∨ piece = "Q x\n\n" := by simpa using hpiece
  · exact hfirst
  · exact hmiddle

end Knowledge

end Propositional
