import Mathlib.Data.List.TakeWhile
import Propositional.Proofs.Formula.Reader
import Propositional.Proofs.Text.Tokens

namespace Propositional

theorem Reading.trailing?_eq_none_iff {r : Reading} :
    r.trailing? = none ↔ ∀ c ∈ r.rest, c = ' ' := by
  have hdrop : r.rest.dropWhile (· == ' ') = [] ↔ ∀ c ∈ r.rest, c = ' ' := by
    simp only [List.dropWhile_eq_nil_iff, beq_iff_eq]
  rw [← hdrop, trailing?]
  cases r.rest.dropWhile (· == ' ') <;> simp

/-- Something is left over exactly where the rest is more than spaces. -/
theorem Reading.exists_trailing?_eq_some_iff {r : Reading} :
    (∃ t, r.trailing? = some t) ↔ ∃ c ∈ r.rest, c ≠ ' ' := by
  rw [← Option.isSome_iff_exists, Option.isSome_iff_ne_none, ne_eq, trailing?_eq_none_iff]
  simp

/-- What is left over is the rest without the spaces in front of it. -/
theorem Reading.rest_eq_of_trailing? {r : Reading} {t : TrailingInput} (h : r.trailing? = some t) :
    t.formula = r.formula ∧ ∃ spaces, r.rest = List.replicate spaces ' ' ++ t.text.toList ∧
      t.text.toList.head? ≠ some ' ' := by
  obtain ⟨hsplit, hspaces, hhead⟩ := Text.split_takeWhile (· == ' ') r.rest
  simp only [beq_iff_eq] at hspaces
  rw [List.eq_replicate_of_mem hspaces] at hsplit
  rw [trailing?] at h
  cases hdrop : r.rest.dropWhile (· == ' ') with
  | nil =>
    rw [hdrop] at h
    cases h
  | cons c cs =>
    rw [hdrop] at h hsplit hhead
    obtain rfl := Option.some.inj h
    refine ⟨rfl, _, by rw [String.toList_ofList]; exact hsplit, ?_⟩
    simpa using hhead

theorem Formula.read_eq_ok_iff {line : String} {r : Reading} :
    read line = .ok r ↔ Reader.run Reader.start 0 line.toList = .ok (r.formula, r.rest) := by
  rw [read]
  cases Reader.run Reader.start 0 line.toList with
  | error cause => simp [Except.map]
  | ok out =>
    obtain ⟨formula, rest⟩ := out
    cases r
    simp [Except.map]

namespace Formula.Reader

variable {frames : List Frame} {c : Char} {cs read : List Char} {position : Nat}
  {out : Formula × List Char}

theorem feedGap_eq_refuse (hspace : c ≠ ' ') (hopen : c ≠ '(') (hclose : c ≠ ')')
    (hword : ¬ Text.isWordChar c = true) : feedGap frames c = .refuse := by
  rw [feedGap, if_neg hspace, if_neg hopen, if_neg hclose, if_neg hword]

/-- Of the blanks only the space may stand between items. -/
theorem feedGap_of_isBlank (hc : Text.isBlank c = true) (hne : c ≠ ' ') :
    feedGap frames c = .refuse := by
  have hopen : c ≠ '(' := by rintro rfl; cases hc
  have hclose : c ≠ ')' := by rintro rfl; cases hc
  exact feedGap_eq_refuse hne hopen hclose (by simp [Text.isWordChar_of_isBlank hc])

theorem not_endsWord_of_isBlank (hc : Text.isBlank c = true) (hne : c ≠ ' ') : ¬ EndsWord c := by
  rintro (rfl | rfl)
  · exact hne rfl
  · cases hc

/-- Reading that gets over some blanks goes on behind them in the same state. -/
theorem exists_run_eq_ok_of_blanks {blanks : List Char}
    (hblanks : ∀ c ∈ blanks, Text.isBlank c = true)
    (h : run ⟨frames, .gap⟩ position (blanks ++ cs) = .ok out) :
    ∃ later, run ⟨frames, .gap⟩ later cs = .ok out := by
  induction blanks generalizing position with
  | nil => exact ⟨position, h⟩
  | cons c blanks ih =>
    by_cases hc : c = ' '
    · subst hc
      exact ih (fun d hd => hblanks d (by simp [hd])) h
    · have hfeed : feed ⟨frames, .gap⟩ c = .refuse := feedGap_of_isBlank (hblanks c (by simp)) hc
      rw [List.cons_append, run_cons_of_refuse hfeed] at h
      cases h

/-- A symbol outside all parentheses ends with the text or at a blank. -/
theorem eq_of_run_symbol_eq_ok (hcs : ∀ c ∈ cs.head?, Text.isBlank c = true)
    (h : run ⟨[], .symbol read⟩ position cs = .ok out) :
    out = (.symbol (String.ofList read.reverse), cs) := by
  cases cs with
  | nil => exact (Except.ok.inj h).symm
  | cons c cs =>
    have hblank := hcs c rfl
    by_cases hc : c = ' '
    · rw [run_cons_of_endsBefore (feed_symbol_of_endsWord_top (.inl hc))] at h
      exact (Except.ok.inj h).symm
    · rw [run_cons_of_refuse (feed_symbol_of_not_endsWord (Text.isWordChar_of_isBlank hblank)
        (not_endsWord_of_isBlank hblank hc))] at h
      cases h

/-- The word of a connective ends at a blank, which has to be a space. -/
theorem run_connective_eq_ok_of_blank (hcs : ∀ c ∈ cs.head?, Text.isBlank c = true)
    (hne : cs ≠ []) (h : run ⟨frames, .connective read⟩ position cs = .ok out) :
    run ⟨.ofWord read.reverse :: frames, .gap⟩ position cs = .ok out := by
  cases cs with
  | nil => exact absurd rfl hne
  | cons c cs =>
    have hblank := hcs c rfl
    by_cases hc : c = ' '
    · rwa [run_cons_congr (feed_connective_of_endsWord (.inl hc))] at h
    · rw [run_cons_of_refuse (feed_connective_of_not_endsWord (Text.isWordChar_of_isBlank hblank)
        (not_endsWord_of_isBlank hblank hc))] at h
      cases h

/-- A symbol, one more character and blanks complete an application only if that
    character closes it. -/
theorem eq_of_run_operand_eq_ok {frame : Frame} {word rest : List Char} (hne : word ≠ [])
    (hword : ∀ d ∈ word, Text.isWordChar d = true) (hrest : ∀ d ∈ rest, Text.isBlank d = true)
    (h : run ⟨[frame], .gap⟩ position (word ++ c :: rest) = .ok out) :
    out = ((frame.add (.symbol (String.ofList word))).close, rest) := by
  have hclose : ')' = c := by
    have hmem := close_mem_of_run_eq_ok (s := ⟨[frame], .gap⟩) Nat.one_pos h
    rcases List.mem_append.mp hmem with hmem | hmem
    · cases hword _ hmem
    · rcases List.mem_cons.mp hmem with heq | hmem
      · exact heq
      · cases hrest _ hmem
  subst hclose
  have hfeed : feed ⟨[frame], .symbol word.reverse⟩ ')' =
      .endsWith (frame.add (.symbol (String.ofList word))).close := by
    rw [feed_symbol_of_endsWord (.inr rfl), List.reverse_reverse]
    rfl
  rw [run_gap_append hne hword, run_cons_of_endsWith hfeed] at h
  exact (Except.ok.inj h).symm

/-- The first token of a text that is read decides what is read: a closing parenthesis stands for
    the symbol without characters, a word is a symbol where a blank or the end follows, and anything
    else has to begin an application. -/
theorem cases_of_run_eq_ok {word rest : List Char} (hc : Text.isBlank c = false)
    (hword : ∀ d ∈ word, Text.isWordChar d = true) (hrest : ∀ d ∈ rest.head?, Text.isBlank d = true)
    (h : run ⟨[], .gap⟩ position (c :: (word ++ rest)) = .ok out) :
    c = '(' ∨ c = ')' ∧ out = (.symbol "", c :: (word ++ rest)) ∨
      Text.isWordChar c = true ∧ out = (.symbol (String.ofList (c :: word)), rest) := by
  by_cases hopen : c = '('
  · exact .inl hopen
  by_cases hclose : c = ')'
  · subst hclose
    rw [run_cons_of_endsBefore rfl] at h
    exact .inr (.inl ⟨rfl, (Except.ok.inj h).symm⟩)
  by_cases hchar : Text.isWordChar c = true
  · have hfirst : ∀ d ∈ c :: word, Text.isWordChar d = true := by simpa [hchar] using hword
    rw [← List.cons_append, run_gap_append (List.cons_ne_nil c word) hfirst] at h
    have hout := eq_of_run_symbol_eq_ok hrest h
    rw [List.reverse_reverse] at hout
    exact .inr (.inr ⟨hchar, hout⟩)
  · have hspace : c ≠ ' ' := by rintro rfl; cases hc
    have hfeed : feed ⟨[], .gap⟩ c = .refuse := feedGap_eq_refuse hspace hopen hclose hchar
    rw [run_cons_of_refuse hfeed] at h
    cases h

end Formula.Reader

end Propositional
