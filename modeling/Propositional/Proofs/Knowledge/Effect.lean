import Propositional.Proofs.Knowledge.Pieces

namespace Propositional

namespace Formula

theorem isOk_parse_iff {line : String} :
    (parse line).isOk = true ↔ ∃ r, read line = .ok r := by
  rw [parse]
  cases read line <;> simp [Except.map, Except.isOk, Except.toBool]

theorem parse_eq_error_iff_read {line : String} {cause : ParseError} :
    parse line = .error cause ↔ read line = .error cause := by
  rw [parse]
  cases read line <;> simp [Except.map]

end Formula

namespace Knowledge

/-- Every line that is not skipped can be read. -/
def Readable (lines : List String) : Prop :=
  ∀ line ∈ statements lines, (Formula.parse line).isOk = true

instance (lines : List String) : Decidable (Readable lines) :=
  inferInstanceAs (Decidable (∀ line ∈ statements lines, _))

/-- What is left over on the lines that can be read. -/
def trailingOn (lines : List String) : List TrailingInput :=
  (statements lines).filterMap fun line => (Formula.read line).toOption.bind (·.trailing?)

/-- Some knowledge with what lines state and fix. -/
def extendedBy (k : Knowledge) (lines : List String) : Knowledge :=
  ⟨k.rules ++ (statements lines).filterMap fun line => (Formula.parse line).toOption,
    (statements lines).foldl noteFact k.fixed⟩

/-- The first line that is not skipped and cannot be read, with the lines in front of it. -/
structure FirstUnreadable (lines before : List String) (line : String) (cause : ParseError) :
    Prop where
  split : ∃ after, lines = before ++ line :: after
  readable : Readable before
  not_skipped : ¬ isSkipped (Text.stripTerminators line) = true
  refused : Formula.parse (Text.stripTerminators line) = .error cause

variable {line : String} {lines before : List String} {readings : List Reading}
  {cause : ParseError}

theorem statements_cons (line : String) (lines : List String) :
    statements (line :: lines) = statements [line] ++ statements lines := by
  rw [statements, List.map_cons, ← List.singleton_append, List.filter_append]
  rfl

theorem readable_nil : Readable [] := by
  intro line hline
  cases hline

theorem readable_cons_iff : Readable (line :: lines) ↔ Readable [line] ∧ Readable lines := by
  rw [Readable, statements_cons, List.forall_mem_append]
  rfl

/-- A line alone stands in the way only if it is not skipped and cannot be read. -/
theorem exists_firstUnreadable_of_not_readable (h : ¬ Readable [line]) (lines : List String) :
    ∃ cause, FirstUnreadable (line :: lines) [] line cause := by
  by_cases hskipped : isSkipped (Text.stripTerminators line) = true
  · rw [Readable, statements_cons_of_isSkipped hskipped] at h
    exact absurd readable_nil h
  · rw [Readable, statements_cons_of_not_isSkipped hskipped] at h
    cases hparse : Formula.parse (Text.stripTerminators line) with
    | ok f =>
      refine absurd (List.forall_mem_cons.mpr ⟨?_, readable_nil⟩) h
      rw [hparse]
      rfl
    | error cause => exact ⟨cause, ⟨lines, rfl⟩, readable_nil, hskipped, hparse⟩

theorem FirstUnreadable.cons {first : String} (h : FirstUnreadable lines before line cause)
    (hfirst : Readable [first]) :
    FirstUnreadable (first :: lines) (first :: before) line cause := by
  obtain ⟨after, hsplit⟩ := h.split
  refine ⟨⟨after, ?_⟩, readable_cons_iff.mpr ⟨hfirst, h.readable⟩, h.not_skipped, h.refused⟩
  rw [hsplit, List.cons_append]

/-- Lines can all be read, unless one of them is the first that cannot. -/
theorem readable_or_exists_firstUnreadable (lines : List String) :
    Readable lines ∨ ∃ before line cause, FirstUnreadable lines before line cause := by
  induction lines with
  | nil => exact .inl readable_nil
  | cons first lines ih =>
    by_cases hfirst : Readable [first]
    · rcases ih with hlines | ⟨before, line, cause, hline⟩
      · exact .inl (readable_cons_iff.mpr ⟨hfirst, hlines⟩)
      · exact .inr ⟨first :: before, line, cause, hline.cons hfirst⟩
    · obtain ⟨cause, hcause⟩ := exists_firstUnreadable_of_not_readable hfirst lines
      exact .inr ⟨[], first, cause, hcause⟩

theorem exists_readAs (h : ∀ line ∈ lines, (Formula.parse line).isOk = true) :
    ∃ readings, ReadAs lines readings := by
  induction lines with
  | nil => exact ⟨[], .nil⟩
  | cons line lines ih =>
    obtain ⟨hline, hlines⟩ := List.forall_mem_cons.mp h
    obtain ⟨reading, hread⟩ := Formula.isOk_parse_iff.mp hline
    obtain ⟨readings, hreadings⟩ := ih hlines
    exact ⟨reading :: readings, .cons hread hreadings⟩

theorem ReadAs.filterMap_trailing? (h : ReadAs lines readings) :
    (lines.filterMap fun line => (Formula.read line).toOption.bind (·.trailing?)) =
      readings.filterMap (·.trailing?) := by
  induction h with
  | nil => rfl
  | @cons line reading lines readings hline hlines ih =>
    have hleft : (Formula.read line).toOption.bind (·.trailing?) = reading.trailing? := by
      rw [hline]
      rfl
    simp only [List.filterMap_cons, hleft, ih]

/-- Lines that can be read are loaded to their end. -/
theorem Readable.loadLines_eq (h : Readable lines) (k : Knowledge) (number : Nat) :
    k.loadLines number lines = ⟨k.extendedBy lines, trailingOn lines, none⟩ := by
  obtain ⟨readings, hreadings⟩ := exists_readAs h
  rw [loadLines_eq_of_readAs hreadings, extendedBy, hreadings.filterMap_parse, trailingOn,
    hreadings.filterMap_trailing?]

/-- At the first line that cannot be read loading stops. What the line fixes still counts. -/
theorem FirstUnreadable.loadLines_eq (h : FirstUnreadable lines before line cause) (k : Knowledge)
    (number : Nat) :
    k.loadLines number lines =
      ⟨(k.extendedBy before).note (Text.stripTerminators line), trailingOn before,
        some ⟨number + before.length, cause⟩⟩ := by
  obtain ⟨after, rfl⟩ := h.split
  have hread := Formula.parse_eq_error_iff_read.mp h.refused
  rw [loadLines_append, h.readable.loadLines_eq, Loaded.andThen_of_no_failure rfl,
    loadLines_cons_of_error h.not_skipped hread, List.append_nil]

/-- Loading a text fails at its first line that cannot be read, and only there. -/
theorem error?_load_eq_some_iff {k : Knowledge} {name text : String} {e : Error} :
    (k.load text).error? name = some e ↔ ∃ before line cause,
      FirstUnreadable (Text.lines text) before line cause ∧
        e = .parse name (before.length + 1) cause := by
  constructor
  · intro h
    rcases readable_or_exists_firstUnreadable (Text.lines text) with hlines | ⟨before, line, cause, hline⟩
    · rw [load, hlines.loadLines_eq] at h
      cases h
    · rw [load, hline.loadLines_eq, Loaded.error?, Option.map_some, Nat.add_comm] at h
      exact ⟨before, line, cause, hline, (Option.some.inj h).symm⟩
  · rintro ⟨before, line, cause, hline, rfl⟩
    rw [load, hline.loadLines_eq, Loaded.error?, Option.map_some, Nat.add_comm]

theorem knowledge_load_of_error?_eq_none {k : Knowledge} {name text : String}
    (h : (k.load text).error? name = none) :
    (k.load text).knowledge = k.extendedBy (Text.lines text) := by
  rcases readable_or_exists_firstUnreadable (Text.lines text) with hlines | ⟨before, line, cause, hline⟩
  · rw [load, hlines.loadLines_eq]
  · rw [error?_load_eq_some_iff.mpr ⟨before, line, cause, hline, rfl⟩] at h
    cases h

/-- Lines are loaded to the end of the text if all that are not skipped can be read. Then the
    knowledge has what they state behind its rules, and of what was fixed before and what they fix
    the last holds. Otherwise loading stops at the first line that cannot be read, whatever stands
    behind it. What is there then, rules and left over input, is what the lines in front of it
    bring alone; only the fact that the line fixes by the look of its tokens is added. -/
theorem load_effect (k : Knowledge) (name text : String) :
    let lines := Text.lines text
    let loaded := k.load text
    (Readable lines ∨ ∃ before line cause, FirstUnreadable lines before line cause) ∧
    (Readable lines →
      loaded.error? name = none ∧ loaded.knowledge = k.extendedBy lines ∧
        loaded.trailing = trailingOn lines) ∧
    ∀ before line cause, FirstUnreadable lines before line cause →
      let earlier := k.loadLines 1 before
      (earlier.error? name = none ∧ earlier.knowledge = k.extendedBy before ∧
        earlier.trailing = trailingOn before) ∧
      loaded.error? name = some (.parse name (before.length + 1) cause) ∧
        loaded.knowledge.rules = earlier.knowledge.rules ∧
        loaded.knowledge.fixed = noteFact earlier.knowledge.fixed (Text.stripTerminators line) ∧
        loaded.trailing = earlier.trailing := by
  intro lines loaded
  refine ⟨readable_or_exists_firstUnreadable lines, ?_, ?_⟩
  · intro hlines
    have hloaded : loaded = _ := hlines.loadLines_eq k 1
    rw [hloaded]
    exact ⟨rfl, rfl, rfl⟩
  · intro before line cause hline earlier
    have hloaded : loaded = _ := hline.loadLines_eq k 1
    have hearlier : earlier = _ := hline.readable.loadLines_eq k 1
    rw [hloaded, hearlier]
    refine ⟨⟨rfl, rfl, rfl⟩, ?_, ?_, ?_, rfl⟩
    · rw [Loaded.error?, Option.map_some, Nat.add_comm]
    · simp only [note_eq]
    · simp only [note_eq]

/-- Two lines that are skipped are counted. The fifth line cannot be read, but by the look of its
    tokens it fixes `R`, in place of the value that was fixed before. -/
theorem load_effect_stopped :
    let k := ((∅ : Knowledge).load "R\n(or P Q)\n").knowledge
    let finished := "P\n#\n(not P)\r\n"
    let stopped := "# facts\nP\r\n\n(not Q) x\n(not RR\nS\n"
    let before := ["# facts", "P\r", "", "(not Q) x"]
    (Readable (Text.lines finished) ∧ (k.load finished).error? "source" = none ∧
      (k.load finished).knowledge = k.extendedBy (Text.lines finished) ∧
      (k.extendedBy (Text.lines finished)).fixed.get? "P" = some false) ∧
    FirstUnreadable (Text.lines stopped) before "(not RR" (.unexpectedEnd 7) ∧
      (k.load stopped).error? "source" = some (.parse "source" 5 (.unexpectedEnd 7)) ∧
      (k.load stopped).knowledge.rules =
        [.symbol "R", .apply .disj [.symbol "P", .symbol "Q"], .symbol "P",
          .apply .neg [.symbol "Q"]] ∧
      (k.fixed.get? "R" = some true ∧ (k.load stopped).knowledge.fixed.get? "R" = some false) ∧
      (k.load stopped).trailing = [⟨"x", .apply .neg [.symbol "Q"]⟩] := by
  intro k finished stopped before
  have hfinished : Readable (Text.lines finished) := by decide +kernel
  have hstopped : FirstUnreadable (Text.lines stopped) before "(not RR" (.unexpectedEnd 7) :=
    ⟨⟨["S"], by decide⟩, by decide +kernel, by decide, by decide +kernel⟩
  obtain ⟨_, hread, _⟩ := k.load_effect "source" finished
  obtain ⟨hnone, hknowledge, _⟩ := hread hfinished
  obtain ⟨_, _, hrefused⟩ := k.load_effect "source" stopped
  obtain ⟨_, herror, hrules, hfixed, htrailing⟩ := hrefused before _ _ hstopped
  refine ⟨⟨hfinished, hnone, hknowledge, by decide +kernel⟩, hstopped, herror, ?_, ⟨?_, ?_⟩, ?_⟩
  · rw [hrules]
    decide +kernel
  · decide +kernel
  · rw [hfixed]
    decide +kernel
  · rw [htrailing]
    decide +kernel

end Knowledge

end Propositional
