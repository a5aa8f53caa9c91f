import Propositional.Proofs.Knowledge.Effect
import Propositional.Proofs.Text.Edits
import Propositional.Statement

namespace Propositional

namespace Statement

variable {text other : String}

theorem read_of_lines {line : String} {later : List String} (h : Text.lines text = line :: later) :
    read text = (Formula.read (Text.stripTerminators line)).mapError (.parse "statement" 1) := by
  rw [read, h]

theorem parse_of_read_eq (h : read other = read text) : parse other = parse text := by
  rw [parse, h, ← parse]

/-- What follows the first line feed has no influence on a statement. -/
theorem read_lineFeed_append (front rest behind : String) :
    read (front ++ "\n" ++ rest) = read (front ++ "\n" ++ behind) := by
  cases hsplit : front.toList.splitOn '\n' with
  | nil => exact absurd hsplit (List.splitOn_ne_nil '\n' front.toList)
  | cons first others =>
    have hlines : ∀ later, ∃ lines, Text.lines (front ++ "\n" ++ later) =
        String.ofList first :: lines := by
      intro later
      exact ⟨_, by rw [Text.lines_lineFeed_append, hsplit, List.map_cons, List.cons_append]⟩
    obtain ⟨_, hrest⟩ := hlines rest
    obtain ⟨_, hbehind⟩ := hlines behind
    rw [read_of_lines hrest, read_of_lines hbehind]

/-- Carriage returns at the ends of lines have none either, as long as there is a first line. -/
theorem read_eq_of_kept {edits : List Text.Edit} (h : Text.Edited edits text other)
    (hkept : ∀ edit ∈ edits, ∃ line returns, edit = .kept line returns) (hne : text ≠ "") :
    read other = read text := by
  cases edits with
  | nil => exact absurd h.before (List.splitOn_ne_nil '\n' text.toList)
  | cons edit edits =>
    obtain ⟨line, returns, rfl⟩ := hkept edit List.mem_cons_self
    have hbefore : text.toList.splitOn '\n' = line :: Text.linesBefore edits := h.before
    have hafter : other.toList.splitOn '\n' =
        (line ++ List.replicate returns '\r') :: Text.linesAfter edits := h.after
    have hother : other ≠ "" := by
      rintro rfl
      obtain ⟨hline, hedits⟩ := List.cons.inj hafter
      obtain ⟨rfl, _⟩ := List.append_eq_nil_iff.mp hline.symm
      obtain rfl := List.map_eq_nil_iff.mp hedits.symm
      exact hne (Text.eq_empty_of_splitOn_eq hbefore)
    obtain ⟨_, htextLines⟩ := Text.exists_lines_eq_cons hne hbefore
    obtain ⟨_, hotherLines⟩ := Text.exists_lines_eq_cons hother hafter
    rw [read_of_lines htextLines, read_of_lines hotherLines, Text.stripTerminators_append_returns]

end Statement

namespace Knowledge

open Text (Edit Edited linesBefore linesAfter)

variable {edits : List Edit} {text other : String}

/-- The line behind the last line feed may be loaded as well, for it is skipped if it is empty. -/
theorem load_eq_loadLines_splitOn (k : Knowledge) (text : String) :
    k.load text = k.loadLines 1 ((text.toList.splitOn '\n').map String.ofList) := by
  rw [load, Text.lines]
  split
  · rename_i hlast
    have hempty : ∀ (k : Knowledge) number, k.loadLines number [""] = ⟨k, [], none⟩ := by
      intro k number
      rw [loadLines_cons_of_isSkipped (by decide)]
      rfl
    have hsplit := List.dropLast_append_getLast? [] hlast
    rw [← hsplit, List.map_append, loadLines_append, hsplit]
    simp only [List.map_singleton, String.ofList_nil, hempty, Loaded.andThen_nothing]
  · rfl

theorem isSkipped_of_isInert {line : List Char} (h : Text.IsInert line) :
    isSkipped (Text.stripTerminators (String.ofList line)) = true := by
  rcases h with hreturns | hcomment
  · rw [Text.stripTerminators_returns hreturns]
    rfl
  · obtain ⟨later, rfl⟩ := List.head?_eq_some_iff.mp hcomment
    rw [isSkipped, Text.head?_stripTerminators (by decide) (by decide)]
    simp

/-- A line that was there either is the same without its terminators, or was skipped and still is. -/
theorem stripTerminators_after {edit : Edit} {line : List Char} (hinert : edit.IsInert)
    (hedit : edit.before? = some line)
    (hline : ¬ isSkipped (Text.stripTerminators (String.ofList line)) = true) :
    Text.stripTerminators (String.ofList edit.after) =
      Text.stripTerminators (String.ofList line) := by
  cases edit with
  | kept kept returns =>
    obtain rfl := Option.some.inj hedit
    exact Text.stripTerminators_append_returns kept returns
  | filled filling =>
    obtain rfl := Option.some.inj hedit
    exact absurd rfl hline
  | inserted line => cases hedit

/-- One edit leaves what is stated as it was. -/
theorem statements_after {edit : Edit} (hinert : edit.IsInert) :
    statements [String.ofList edit.after] =
      statements (edit.before?.toList.map String.ofList) := by
  cases edit with
  | kept line returns =>
    have hstrip := Text.stripTerminators_append_returns line returns
    simp only [statements, List.map_cons, List.map_nil, Edit.after, Edit.before?,
      Option.toList_some, hstrip]
  | filled line =>
    rw [Edit.after, statements_cons_of_isSkipped (isSkipped_of_isInert hinert)]
    rfl
  | inserted line =>
    rw [Edit.after, statements_cons_of_isSkipped (isSkipped_of_isInert hinert)]
    rfl

theorem statements_append (lines others : List String) :
    statements (lines ++ others) = statements lines ++ statements others := by
  simp only [statements, List.map_append, List.filter_append]

theorem statements_linesAfter (hinert : ∀ edit ∈ edits, edit.IsInert) :
    statements ((linesAfter edits).map String.ofList) =
      statements ((linesBefore edits).map String.ofList) := by
  induction edits with
  | nil => rfl
  | cons edit edits ih =>
    obtain ⟨hedit, hedits⟩ := List.forall_mem_cons.mp hinert
    have hbefore : linesBefore (edit :: edits) = edit.before?.toList ++ linesBefore edits := by
      cases edit <;> rfl
    have hafter : linesAfter (edit :: edits) = edit.after :: linesAfter edits := rfl
    rw [hbefore, hafter, List.map_append, List.map_cons, statements_cons, statements_append,
      statements_after hedit, ih hedits]

theorem readable_linesAfter_iff (hinert : ∀ edit ∈ edits, edit.IsInert) :
    Readable ((linesAfter edits).map String.ofList) ↔
      Readable ((linesBefore edits).map String.ofList) := by
  rw [Readable, Readable, statements_linesAfter hinert]

theorem extendedBy_linesAfter (k : Knowledge) (hinert : ∀ edit ∈ edits, edit.IsInert) :
    k.extendedBy ((linesAfter edits).map String.ofList) =
      k.extendedBy ((linesBefore edits).map String.ofList) := by
  rw [extendedBy, extendedBy, statements_linesAfter hinert]

theorem trailingOn_linesAfter (hinert : ∀ edit ∈ edits, edit.IsInert) :
    trailingOn ((linesAfter edits).map String.ofList) =
      trailingOn ((linesBefore edits).map String.ofList) := by
  rw [trailingOn, trailingOn, statements_linesAfter hinert]

/-- The first line that cannot be read is still the first one, and reads as it did. -/
theorem FirstUnreadable.exists_edit {before : List String} {line : String} {cause : ParseError}
    (h : FirstUnreadable ((linesBefore edits).map String.ofList) before line cause)
    (hinert : ∀ edit ∈ edits, edit.IsInert) :
    ∃ front edit back, edits = front ++ edit :: back ∧ edit.isInserted = false ∧
      before = (linesBefore front).map String.ofList ∧
      Text.stripTerminators (String.ofList edit.after) = Text.stripTerminators line ∧
      FirstUnreadable ((linesAfter edits).map String.ofList)
        ((linesAfter front).map String.ofList) (String.ofList edit.after) cause := by
  obtain ⟨after, hsplit⟩ := h.split
  obtain ⟨lines, others, hlines, rfl, hothers⟩ := List.map_eq_append_iff.mp hsplit
  obtain ⟨chars, behind, rfl, rfl, rfl⟩ := List.map_eq_cons_iff.mp hothers
  obtain ⟨front, edit, back, rfl, rfl, hedit⟩ := Text.exists_edit_of_linesBefore_eq hlines
  obtain ⟨hfront, hrest⟩ := List.forall_mem_append.mp hinert
  have hstrip := stripTerminators_after (hrest edit List.mem_cons_self) hedit h.not_skipped
  have hkept : edit.isInserted = false := by
    have hsome := edit.isSome_before?
    rw [hedit] at hsome
    simpa using hsome.symm
  refine ⟨front, edit, back, rfl, hkept, rfl, hstrip, ?_, ?_, ?_, ?_⟩
  · exact ⟨(linesAfter back).map String.ofList, by
      simp only [linesAfter, List.map_append, List.map_cons]⟩
  · exact (readable_linesAfter_iff hfront).mpr h.readable
  · rw [hstrip]
    exact h.not_skipped
  · rw [hstrip]
    exact h.refused

/-- Carriage returns at the ends of lines, empty lines and comments make no difference to what is
    loaded and to what is left over. If loading stops, it stops at the same line and for the same
    reason, and the number of this line is larger by the number of lines put in in front of it. A
    statement that has a first line stays the same under further carriage returns, and under
    anything that is done behind the first line feed. -/
theorem inert_edits_change_nothing (k : Knowledge) (name : String) :
    (∀ edits text other, Edited edits text other →
      let before := k.load text
      let after := k.load other
      after.knowledge = before.knowledge ∧ after.trailing = before.trailing ∧
        (after.error? name = none ↔ before.error? name = none) ∧
        ∀ e, before.error? name = some e → ∃ front edit back cause,
          edits = front ++ edit :: back ∧ edit.isInserted = false ∧
            let number := (linesBefore front).length + 1
            e = .parse name number cause ∧ after.error? name =
              some (.parse name (number + front.countP Edit.isInserted) cause)) ∧
    (∀ edits text other, Edited edits text other →
      (∀ edit ∈ edits, ∃ line returns, edit = .kept line returns) → text ≠ "" →
        Statement.read other = Statement.read text ∧
          Statement.parse other = Statement.parse text) ∧
    ∀ front rest behind,
      Statement.read (front ++ "\n" ++ rest) = Statement.read (front ++ "\n" ++ behind) ∧
        Statement.parse (front ++ "\n" ++ rest) = Statement.parse (front ++ "\n" ++ behind) := by
  refine ⟨?_, ?_, ?_⟩
  · intro edits text other h
    simp only [load_eq_loadLines_splitOn, h.before, h.after]
    rcases readable_or_exists_firstUnreadable ((linesBefore edits).map String.ofList) with
      hreadable | ⟨before, line, cause, hline⟩
    · rw [hreadable.loadLines_eq, ((readable_linesAfter_iff h.inert).mpr hreadable).loadLines_eq,
        extendedBy_linesAfter k h.inert, trailingOn_linesAfter h.inert]
      exact ⟨rfl, rfl, Iff.rfl, nofun⟩
    · obtain ⟨front, edit, back, rfl, hkept, rfl, hstrip, hother⟩ := hline.exists_edit h.inert
      have hfront := (List.forall_mem_append.mp h.inert).1
      rw [hline.loadLines_eq, hother.loadLines_eq, extendedBy_linesAfter k hfront,
        trailingOn_linesAfter hfront, hstrip, List.length_map, List.length_map,
        Text.length_linesAfter]
      refine ⟨rfl, rfl, ⟨nofun, nofun⟩, ?_⟩
      intro e he
      obtain rfl := Option.some.inj he
      exact ⟨front, edit, back, cause, rfl, hkept, by rw [Nat.add_comm],
        by rw [← Nat.add_assoc, Nat.add_comm 1]; rfl⟩
  · intro edits text other h hkept hne
    have hread := Statement.read_eq_of_kept h hkept hne
    exact ⟨hread, Statement.parse_of_read_eq hread⟩
  · intro front rest behind
    have hread := Statement.read_lineFeed_append front rest behind
    exact ⟨hread, Statement.parse_of_read_eq hread⟩

/-- Two lines are put in in front of the one that cannot be read and one behind it, the empty line at
    the end becomes a comment, and the last carriage return has no line feed behind it. -/
theorem inert_edits_change_nothing_counted :
    let k := ((∅ : Knowledge).load "P\n").knowledge
    let text := "(not P)\n(or Q\n"
    let other := "# facts\r\n(not P)\r\r\n\r\n(or Q\n#\n\r"
    let edits : List Edit := [.inserted "# facts\r".toList, .kept "(not P)".toList 2,
      .inserted ['\r'], .kept "(or Q".toList 0, .inserted ['#'], .filled ['\r']]
    let kept : List Edit := [.kept "(not P)".toList 2, .kept "(or Q".toList 0, .kept [] 1]
    Edited edits text other ∧
      (k.load text).error? "source" = some (.parse "source" 2 (.unexpectedEnd 5)) ∧
      (k.load other).error? "source" = some (.parse "source" 4 (.unexpectedEnd 5)) ∧
      (k.load other).knowledge = (k.load text).knowledge ∧
      (Edited kept text "(not P)\r\r\n(or Q\n\r" ∧
        Statement.parse "(not P)\r\r\n(or Q\n\r" = Statement.parse text) := by
  intro k text other edits kept
  have hedits : Edited edits text other :=
    ⟨by decide +kernel, by decide +kernel, by decide⟩
  have hkept : Edited kept text "(not P)\r\r\n(or Q\n\r" :=
    ⟨by decide +kernel, by decide +kernel, by decide⟩
  have hstopped : (k.load text).error? "source" =
      some (.parse "source" 2 (.unexpectedEnd 5)) := by decide +kernel
  obtain ⟨hload, hstatement, _⟩ := k.inert_edits_change_nothing "source"
  obtain ⟨hknowledge, _⟩ := hload edits text other hedits
  have hreturns : ∀ edit ∈ kept, ∃ line returns, edit = .kept line returns := by
    simp only [kept, List.forall_mem_cons]
    exact ⟨⟨_, _, rfl⟩, ⟨_, _, rfl⟩, ⟨_, _, rfl⟩, List.forall_mem_nil _⟩
  obtain ⟨_, hparse⟩ := hstatement kept text _ hkept hreturns (by decide)
  exact ⟨hedits, hstopped, by decide +kernel, hknowledge, hkept, hparse⟩

end Knowledge

end Propositional
