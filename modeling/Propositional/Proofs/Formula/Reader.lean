import Propositional.Formula.Reader

namespace Propositional.Formula.Reader

/-- The characters that may stand directly behind a word. -/
def EndsWord (c : Char) : Prop := c = ' ' ∨ c = ')'

theorem EndsWord.isWordChar_eq_false {c : Char} (hc : EndsWord c) :
    Text.isWordChar c = false := by
  rcases hc with rfl | rfl <;> rfl

variable {frames : List Frame} {c : Char} {read : List Char}

theorem feedGap_of_isWordChar (hc : Text.isWordChar c = true) :
    feedGap frames c = .next ⟨frames, .symbol [c]⟩ := by
  have hspace : c ≠ ' ' := by rintro rfl; cases hc
  have hopen : c ≠ '(' := by rintro rfl; cases hc
  have hclose : c ≠ ')' := by rintro rfl; cases hc
  rw [feedGap, if_neg hspace, if_neg hopen, if_neg hclose, if_pos hc]

theorem feed_symbol_of_isWordChar (hc : Text.isWordChar c = true) :
    feed ⟨frames, .symbol read⟩ c = .next ⟨frames, .symbol (c :: read)⟩ := by
  simp only [feed, hc, if_true]

theorem feed_connective_of_isWordChar (hc : Text.isWordChar c = true) :
    feed ⟨frames, .connective read⟩ c = .next ⟨frames, .connective (c :: read)⟩ := by
  simp only [feed, hc, if_true]

/-- Where a word ends, the character behind it counts as one between items. -/
theorem feed_connective_of_endsWord (hc : EndsWord c) :
    feed ⟨frames, .connective read⟩ c = feed ⟨.ofWord read.reverse :: frames, .gap⟩ c := by
  simp only [feed, hc.isWordChar_eq_false, Bool.false_eq_true, if_false]
  exact if_pos hc

theorem feed_symbol_of_endsWord (hc : EndsWord c) (frame : Frame) :
    feed ⟨frame :: frames, .symbol read⟩ c =
      feed ⟨frame.add (.symbol (String.ofList read.reverse)) :: frames, .gap⟩ c := by
  simp only [feed, hc.isWordChar_eq_false, Bool.false_eq_true, if_false]
  exact if_pos hc

theorem feed_symbol_of_endsWord_top (hc : EndsWord c) :
    feed ⟨[], .symbol read⟩ c = .endsBefore (.symbol (String.ofList read.reverse)) := by
  simp only [feed, hc.isWordChar_eq_false, Bool.false_eq_true, if_false]
  exact if_pos hc

theorem feed_connective_of_not_endsWord (hword : Text.isWordChar c = false) (hends : ¬ EndsWord c) :
    feed ⟨frames, .connective read⟩ c = .refuse := by
  simp only [feed, hword, Bool.false_eq_true, if_false]
  exact if_neg hends

theorem feed_symbol_of_not_endsWord (hword : Text.isWordChar c = false) (hends : ¬ EndsWord c) :
    feed ⟨frames, .symbol read⟩ c = .refuse := by
  simp only [feed, hword, Bool.false_eq_true, if_false]
  exact if_neg hends

variable {s t : State} {f : Formula} {cs : List Char} {position : Nat}

theorem run_cons_of_next (h : feed s c = .next t) :
    run s position (c :: cs) = run t (position + c.utf8Size) cs := by
  simp only [run, h]

theorem run_cons_of_endsWith (h : feed s c = .endsWith f) :
    run s position (c :: cs) = .ok (f, cs) := by
  simp only [run, h]

theorem run_cons_of_endsBefore (h : feed s c = .endsBefore f) :
    run s position (c :: cs) = .ok (f, c :: cs) := by
  simp only [run, h]

theorem run_cons_of_refuse (h : feed s c = .refuse) :
    run s position (c :: cs) = .error (.unexpectedCharacter c position) := by
  simp only [run, h]

theorem run_cons_congr (h : feed s c = feed t c) :
    run s position (c :: cs) = run t position (c :: cs) := by
  simp only [run, h]

/-- A word is taken up whole where each character of a word is taken up. -/
theorem run_append_of_feed {focus : List Char → Focus} {word : List Char}
    (hfeed : ∀ read c, Text.isWordChar c = true →
      feed ⟨frames, focus read⟩ c = .next ⟨frames, focus (c :: read)⟩)
    (hword : ∀ c ∈ word, Text.isWordChar c = true) :
    run ⟨frames, focus read⟩ position (word ++ cs) =
      run ⟨frames, focus (word.reverse ++ read)⟩ (position + byteCount word) cs := by
  induction word generalizing read position with
  | nil => rfl
  | cons c word ih =>
    rw [List.cons_append, run_cons_of_next (hfeed read c (hword c (by simp))),
      ih fun d hd => hword d (by simp [hd])]
    simp only [List.reverse_cons, List.append_assoc, List.singleton_append, byteCount,
      Nat.add_assoc]

/-- The characters of a word go on with a symbol. -/
theorem run_symbol_append {word : List Char} (hword : ∀ c ∈ word, Text.isWordChar c = true) :
    run ⟨frames, .symbol read⟩ position (word ++ cs) =
      run ⟨frames, .symbol (word.reverse ++ read)⟩ (position + byteCount word) cs :=
  run_append_of_feed (fun _ _ hc => feed_symbol_of_isWordChar hc) hword

/-- The characters of a word go on with the word of a connective. -/
theorem run_connective_append {word : List Char}
    (hword : ∀ c ∈ word, Text.isWordChar c = true) :
    run ⟨frames, .connective read⟩ position (word ++ cs) =
      run ⟨frames, .connective (word.reverse ++ read)⟩ (position + byteCount word) cs :=
  run_append_of_feed (fun _ _ hc => feed_connective_of_isWordChar hc) hword

/-- A word between items is a symbol. -/
theorem run_gap_append {word : List Char} (hne : word ≠ [])
    (hword : ∀ c ∈ word, Text.isWordChar c = true) :
    run ⟨frames, .gap⟩ position (word ++ cs) =
      run ⟨frames, .symbol word.reverse⟩ (position + byteCount word) cs := by
  cases word with
  | nil => exact absurd rfl hne
  | cons c word =>
    have hfeed : feed ⟨frames, .gap⟩ c = .next ⟨frames, .symbol [c]⟩ :=
      feedGap_of_isWordChar (hword c (by simp))
    rw [List.cons_append, run_cons_of_next hfeed,
      run_symbol_append fun d hd => hword d (by simp [hd])]
    simp only [List.reverse_cons, byteCount, Nat.add_assoc]

/-- The number of parentheses that are open in a state. -/
def State.depth : State → Nat
  | ⟨frames, .connective _⟩ => frames.length + 1
  | ⟨frames, _⟩ => frames.length

theorem feedGap_of_ne_close (hc : c ≠ ')') (hopen : frames ≠ []) :
    feedGap frames c = .refuse ∨ ∃ t, feedGap frames c = .next t ∧ 0 < t.depth := by
  have hlength : 0 < frames.length := List.length_pos_iff.mpr hopen
  unfold feedGap
  split
  · exact .inr ⟨_, rfl, hlength⟩
  · split
    · exact .inr ⟨_, rfl, Nat.succ_pos _⟩
    · split
      · exact .inr ⟨_, rfl, hlength⟩
      · exact .inl rfl

/-- With a parenthesis open, no character but a closing one ends the reading. -/
theorem feed_of_ne_close (hc : c ≠ ')') (hopen : 0 < s.depth) :
    feed s c = .refuse ∨ ∃ t, feed s c = .next t ∧ 0 < t.depth := by
  obtain ⟨frames, focus⟩ := s
  cases focus with
  | gap => exact feedGap_of_ne_close hc (List.length_pos_iff.mp hopen)
  | connective read =>
    by_cases hword : Text.isWordChar c = true
    · exact .inr ⟨_, feed_connective_of_isWordChar hword, Nat.succ_pos _⟩
    · by_cases hends : EndsWord c
      · rw [feed_connective_of_endsWord hends]
        exact feedGap_of_ne_close hc (List.cons_ne_nil _ _)
      · exact .inl (feed_connective_of_not_endsWord (Bool.eq_false_iff.mpr hword) hends)
  | symbol read =>
    by_cases hword : Text.isWordChar c = true
    · exact .inr ⟨_, feed_symbol_of_isWordChar hword, hopen⟩
    · by_cases hends : EndsWord c
      · cases frames with
        | nil => exact absurd hopen (Nat.lt_irrefl 0)
        | cons frame frames =>
          rw [feed_symbol_of_endsWord hends]
          exact feedGap_of_ne_close hc (List.cons_ne_nil _ _)
      · exact .inl (feed_symbol_of_not_endsWord (Bool.eq_false_iff.mpr hword) hends)

theorem finish_of_depth_pos (hopen : 0 < s.depth) (position : Nat) :
    finish s position = .error (.unexpectedEnd position) := by
  obtain ⟨frames, focus⟩ := s
  cases focus with
  | connective read => cases frames <;> rfl
  | gap =>
    cases frames with
    | nil => exact absurd hopen (Nat.lt_irrefl 0)
    | cons frame frames => rfl
  | symbol read =>
    cases frames with
    | nil => exact absurd hopen (Nat.lt_irrefl 0)
    | cons frame frames => rfl

/-- What is read from a state with an open parenthesis closes it. -/
theorem close_mem_of_run_eq_ok {out : Formula × List Char} (hopen : 0 < s.depth)
    (h : run s position cs = .ok out) : ')' ∈ cs := by
  induction cs generalizing s position with
  | nil =>
    rw [run, finish_of_depth_pos hopen] at h
    cases h
  | cons c cs ih =>
    by_cases hc : c = ')'
    · simp [hc]
    · rcases feed_of_ne_close hc hopen with hfeed | ⟨t, hfeed, ht⟩
      · rw [run_cons_of_refuse hfeed] at h
        cases h
      · rw [run_cons_of_next hfeed] at h
        exact List.mem_cons_of_mem c (ih ht h)

end Propositional.Formula.Reader
