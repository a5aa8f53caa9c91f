import Propositional.Proofs.Formula.Grammar
import Propositional.Proofs.Formula.Reading

namespace Propositional.Formula

namespace Reader

/-- The application that a frame becomes when these operands have been read as well. -/
def Frame.closeWith (frame : Frame) (fs : List Formula) : Formula :=
  .apply frame.connective (frame.operands.reverse ++ fs)

theorem Frame.closeWith_nil (frame : Frame) : frame.closeWith [] = frame.close := by
  rw [closeWith, close, List.append_nil]

theorem Frame.closeWith_add (frame : Frame) (f : Formula) (fs : List Formula) :
    (frame.add f).closeWith fs = frame.closeWith (f :: fs) := by
  simp only [closeWith, add, List.reverse_cons, List.append_assoc, List.singleton_append]

variable {frames : List Frame} {read cs : List Char} {position : Nat}

/-- What a character between items does. -/
theorem feed_gap_cases (frames : List Frame) (c : Char) :
    c = ' ' ∧ feed ⟨frames, .gap⟩ c = .next ⟨frames, .gap⟩ ∨
      c = '(' ∧ feed ⟨frames, .gap⟩ c = .next ⟨frames, .connective []⟩ ∨
      c = ')' ∧ feed ⟨frames, .gap⟩ c = close frames ∨
      Text.isWordChar c = true ∧ feed ⟨frames, .gap⟩ c = .next ⟨frames, .symbol [c]⟩ ∨
      feed ⟨frames, .gap⟩ c = .refuse := by
  by_cases hspace : c = ' '
  · subst hspace
    exact .inl ⟨rfl, rfl⟩
  by_cases hopen : c = '('
  · subst hopen
    exact .inr (.inl ⟨rfl, rfl⟩)
  by_cases hclose : c = ')'
  · subst hclose
    exact .inr (.inr (.inl ⟨rfl, rfl⟩))
  by_cases hword : Text.isWordChar c = true
  · exact .inr (.inr (.inr (.inl ⟨hword, feedGap_of_isWordChar hword⟩)))
  · exact .inr (.inr (.inr (.inr (feedGap_eq_refuse hspace hopen hclose hword))))

/-- Reading when a formula is complete: outside all parentheses it is the result,
    inside it becomes an operand and reading goes on behind it. -/
def resume : List Frame → Formula → Nat → List Char → Except ParseError (Formula × List Char)
  | [], f, _, cs => .ok (f, cs)
  | frame :: frames, f, position, cs => run ⟨frame.add f :: frames, .gap⟩ position cs

theorem run_gap_replicate (spaces position : Nat) (cs : List Char) :
    run ⟨frames, .gap⟩ position (List.replicate spaces ' ' ++ cs) =
      run ⟨frames, .gap⟩ (position + spaces) cs := by
  induction spaces generalizing position with
  | zero => rfl
  | succ spaces ih =>
    have hfeed : feed ⟨frames, .gap⟩ ' ' = .next ⟨frames, .gap⟩ := rfl
    have hsize : ' '.utf8Size = 1 := rfl
    rw [List.replicate_succ, List.cons_append, run_cons_of_next hfeed, ih, hsize, Nat.add_assoc,
      Nat.add_comm 1]

/-- A symbol is complete where its word ends. -/
theorem run_symbol_eq_resume (hends : ∀ c ∈ cs.head?, EndsWord c) :
    run ⟨frames, .symbol read⟩ position cs =
      resume frames (.symbol (String.ofList read.reverse)) position cs := by
  cases cs with
  | nil => cases frames <;> rfl
  | cons c cs =>
    have hc : EndsWord c := hends c rfl
    cases frames with
    | nil => exact run_cons_of_endsBefore (feed_symbol_of_endsWord_top hc)
    | cons frame frames => exact run_cons_congr (feed_symbol_of_endsWord hc frame)

/-- The operands follow where the word of a connective ends. -/
theorem run_connective_eq_gap (hends : ∃ c ∈ cs.head?, EndsWord c) :
    run ⟨frames, .connective read⟩ position cs =
      run ⟨.ofWord read.reverse :: frames, .gap⟩ position cs := by
  cases cs with
  | nil =>
    obtain ⟨c, hc, _⟩ := hends
    cases hc
  | cons c cs =>
    obtain ⟨d, hd, hends⟩ := hends
    obtain rfl := Option.some.inj hd
    exact run_cons_congr (feed_connective_of_endsWord hends)

theorem run_close_eq_resume (frame : Frame) (frames : List Frame) (position : Nat)
    (cs : List Char) :
    run ⟨frame :: frames, .gap⟩ position (')' :: cs) =
      resume frames frame.close (position + 1) cs := by
  cases frames with
  | nil => exact run_cons_of_endsWith rfl
  | cons outer frames => exact run_cons_of_next rfl

end Reader

open Reader

-- Along a derivation the open frames stay as they are, so both statements are for all
-- frames, and what comes behind the text is left to `resume`.
mutual

/-- Reading takes a text that denotes a formula for that formula, and goes on with
    the rest. -/
theorem Denotes.exists_run_eq {text rest : List Char} {f : Formula} :
    Denotes text f rest → ∀ (frames : List Frame) (position : Nat),
      ∃ later, run ⟨frames, .gap⟩ position text = resume frames f later rest
  | @Denotes.symbol word _ hne hword hrest => by
    intro frames position
    refine ⟨position + byteCount word, ?_⟩
    rw [run_gap_append hne hword, run_symbol_eq_resume hrest, List.reverse_reverse]
  | @Denotes.apply word _ _ _ hword hends hoperands => by
    intro frames position
    obtain ⟨later, hrun⟩ :=
      hoperands.exists_run_eq (.ofWord word) frames (position + 1 + byteCount word)
    refine ⟨later, ?_⟩
    have hfeed : feed ⟨frames, .gap⟩ '(' = .next ⟨frames, .connective []⟩ := rfl
    rw [run_cons_of_next hfeed, run_connective_append hword, List.append_nil,
      run_connective_eq_gap hends, List.reverse_reverse]
    exact hrun

/-- Reading takes a text that denotes operands for the operands that the innermost
    frame still lacks, and closes that frame. -/
theorem DenotesAll.exists_run_eq {text rest : List Char} {fs : List Formula} :
    DenotesAll text fs rest → ∀ (frame : Frame) (frames : List Frame) (position : Nat),
      ∃ later, run ⟨frame :: frames, .gap⟩ position text =
        resume frames (frame.closeWith fs) later rest
  | .close spaces rest => by
    intro frame frames position
    refine ⟨position + spaces + 1, ?_⟩
    rw [run_gap_replicate, run_close_eq_resume, frame.closeWith_nil]
  | @DenotesAll.operand spaces _ _ _ f fs hf hfs => by
    intro frame frames position
    obtain ⟨middle, hfirst⟩ := hf.exists_run_eq (frame :: frames) (position + spaces)
    obtain ⟨later, hothers⟩ := hfs.exists_run_eq (frame.add f) frames middle
    refine ⟨later, ?_⟩
    rw [run_gap_replicate, hfirst, ← frame.closeWith_add f fs]
    exact hothers

end

/-- Reading a line gives what the line denotes. -/
theorem LineDenotes.run_eq {line rest : List Char} {f : Formula}
    (h : LineDenotes line f rest) : run start 0 line = .ok (f, rest) := by
  obtain ⟨spaces, text, rfl, hdenotes⟩ := h
  rw [start, run_gap_replicate]
  rcases hdenotes with hdenotes | ⟨rfl, hhead, rfl⟩
  · obtain ⟨later, hrun⟩ := hdenotes.exists_run_eq [] (0 + spaces)
    exact hrun
  · cases rest with
    | nil => cases hhead
    | cons c rest =>
      obtain rfl := Option.some.inj hhead
      exact run_cons_of_endsBefore rfl

namespace Reader

/-- What the text behind a formula has to be, so that a result comes out: each open
    application still needs operands and its closing parenthesis. -/
def Closes : List Frame → Formula → List Char → Formula × List Char → Prop
  | [], f, text, out => out = (f, text)
  | frame :: frames, f, text, out =>
    ∃ fs rest, DenotesAll text fs rest ∧ Closes frames (frame.closeWith (f :: fs)) rest out

/-- What the text from the space between items on has to be. -/
def CompletesGap : List Frame → List Char → Formula × List Char → Prop
  | [], text, out => LineDenotes text out.1 out.2
  | frame :: frames, text, out =>
    ∃ fs rest, DenotesAll text fs rest ∧ Closes frames (frame.closeWith fs) rest out

/-- What the text from a state on has to be, so that a result comes out. -/
def Completes : State → List Char → Formula × List Char → Prop
  | ⟨frames, .gap⟩, text, out => CompletesGap frames text out
  | ⟨frames, .connective read⟩, text, out =>
    ∃ word others fs rest, text = word ++ others ∧ (∀ c ∈ word, Text.isWordChar c = true) ∧
      (∃ c ∈ others.head?, EndsWord c) ∧ DenotesAll others fs rest ∧
      Closes frames (.apply (.ofWord (String.ofList (read.reverse ++ word))) fs) rest out
  | ⟨frames, .symbol read⟩, text, out =>
    ∃ word rest, text = word ++ rest ∧ (∀ c ∈ word, Text.isWordChar c = true) ∧
      (∀ c ∈ rest.head?, EndsWord c) ∧
      Closes frames (.symbol (String.ofList (read.reverse ++ word))) rest out

variable {frames : List Frame} {c : Char} {cs read text rest : List Char} {f : Formula}
  {position : Nat} {out : Formula × List Char}

theorem closes_cons_iff {frame : Frame} :
    Closes (frame :: frames) f text out ↔ Completes ⟨frame.add f :: frames, .gap⟩ text out := by
  simp only [Closes, Completes, CompletesGap, Frame.closeWith_add]

/-- A formula that stands in front of what closes the open applications may also
    have spaces in front of it. -/
theorem completes_gap_cons_space (h : Completes ⟨frames, .gap⟩ cs out) :
    Completes ⟨frames, .gap⟩ (' ' :: cs) out := by
  cases frames with
  | nil => exact LineDenotes.cons_space h
  | cons frame frames =>
    obtain ⟨fs, rest, hfs, hcloses⟩ := h
    exact ⟨fs, rest, hfs.cons_space, hcloses⟩

theorem completes_gap_of_denotes (hf : Denotes text f rest) (hcloses : Closes frames f rest out) :
    Completes ⟨frames, .gap⟩ text out := by
  cases frames with
  | nil =>
    obtain rfl : out = (f, rest) := hcloses
    exact hf.lineDenotes
  | cons frame frames =>
    obtain ⟨fs, later, hfs, hcloses⟩ := hcloses
    exact ⟨f :: fs, later, .operand 0 hf hfs, hcloses⟩

theorem completes_gap_cons_open (h : Completes ⟨frames, .connective []⟩ cs out) :
    Completes ⟨frames, .gap⟩ ('(' :: cs) out := by
  obtain ⟨word, others, fs, rest, rfl, hword, hends, hfs, hcloses⟩ := h
  exact completes_gap_of_denotes (.apply hword hends hfs) hcloses

theorem completes_gap_cons_word (hc : Text.isWordChar c = true)
    (h : Completes ⟨frames, .symbol [c]⟩ cs out) : Completes ⟨frames, .gap⟩ (c :: cs) out := by
  obtain ⟨word, rest, rfl, hword, hends, hcloses⟩ := h
  have hfirst : ∀ d ∈ c :: word, Text.isWordChar d = true := by simpa [hc] using hword
  exact completes_gap_of_denotes (.symbol (List.cons_ne_nil c word) hfirst hends) hcloses

/-- Reading that succeeds from the space between items on has found what it needed,
    if reading from the next character on has. -/
theorem completes_gap_of_run_cons
    (ih : ∀ s position, run s position cs = .ok out → Completes s cs out)
    (h : run ⟨frames, .gap⟩ position (c :: cs) = .ok out) :
    Completes ⟨frames, .gap⟩ (c :: cs) out := by
  rcases feed_gap_cases frames c with ⟨rfl, hfeed⟩ | ⟨rfl, hfeed⟩ | ⟨rfl, hfeed⟩ | ⟨hc, hfeed⟩ | hfeed
  · rw [run_cons_of_next hfeed] at h
    exact completes_gap_cons_space (ih _ _ h)
  · rw [run_cons_of_next hfeed] at h
    exact completes_gap_cons_open (ih _ _ h)
  · cases frames with
    | nil =>
      rw [run_cons_of_endsBefore hfeed] at h
      obtain rfl := Except.ok.inj h
      exact lineDenotes_close cs
    | cons frame frames =>
      rw [run_close_eq_resume, ← frame.closeWith_nil] at h
      refine ⟨[], cs, .close 0 cs, ?_⟩
      cases frames with
      | nil => exact (Except.ok.inj h).symm
      | cons outer frames => exact closes_cons_iff.mpr (ih _ _ h)
  · rw [run_cons_of_next hfeed] at h
    exact completes_gap_cons_word hc (ih _ _ h)
  · rw [run_cons_of_refuse hfeed] at h
    cases h

/-- The same from within the word of a connective, which goes on or is complete. -/
theorem completes_connective_of_run_cons
    (ih : ∀ s position, run s position cs = .ok out → Completes s cs out)
    (h : run ⟨frames, .connective read⟩ position (c :: cs) = .ok out) :
    Completes ⟨frames, .connective read⟩ (c :: cs) out := by
  by_cases hword : Text.isWordChar c = true
  · rw [run_cons_of_next (feed_connective_of_isWordChar hword)] at h
    obtain ⟨word, others, fs, rest, rfl, hchars, hends, hfs, hcloses⟩ := ih _ _ h
    refine ⟨c :: word, others, fs, rest, rfl, by simpa [hword] using hchars, hends, hfs, ?_⟩
    rwa [List.reverse_cons, List.append_assoc] at hcloses
  by_cases hends : EndsWord c
  · rw [run_connective_eq_gap ⟨c, rfl, hends⟩] at h
    obtain ⟨fs, rest, hfs, hcloses⟩ := completes_gap_of_run_cons ih h
    refine ⟨[], c :: cs, fs, rest, rfl, nofun, ⟨c, rfl, hends⟩, hfs, ?_⟩
    rw [List.append_nil]
    exact hcloses
  · have hfeed : feed ⟨frames, .connective read⟩ c = .refuse :=
      feed_connective_of_not_endsWord (Bool.eq_false_iff.mpr hword) hends
    rw [run_cons_of_refuse hfeed] at h
    cases h

/-- The same from within the word of a symbol. Where this is complete outside all
    parentheses, the character behind it is left to the rest. -/
theorem completes_symbol_of_run_cons
    (ih : ∀ s position, run s position cs = .ok out → Completes s cs out)
    (h : run ⟨frames, .symbol read⟩ position (c :: cs) = .ok out) :
    Completes ⟨frames, .symbol read⟩ (c :: cs) out := by
  by_cases hword : Text.isWordChar c = true
  · rw [run_cons_of_next (feed_symbol_of_isWordChar hword)] at h
    obtain ⟨word, rest, rfl, hchars, hends, hcloses⟩ := ih _ _ h
    refine ⟨c :: word, rest, rfl, by simpa [hword] using hchars, hends, ?_⟩
    rwa [List.reverse_cons, List.append_assoc] at hcloses
  by_cases hends : EndsWord c
  · have hhead : ∀ d ∈ (c :: cs).head?, EndsWord d := by simpa using hends
    rw [run_symbol_eq_resume hhead] at h
    refine ⟨[], c :: cs, rfl, nofun, hhead, ?_⟩
    rw [List.append_nil]
    -- Inside an application the same character is read once more, now between items.
    cases frames with
    | nil => exact (Except.ok.inj h).symm
    | cons frame frames => exact closes_cons_iff.mpr (completes_gap_of_run_cons ih h)
  · have hfeed : feed ⟨frames, .symbol read⟩ c = .refuse :=
      feed_symbol_of_not_endsWord (Bool.eq_false_iff.mpr hword) hends
    rw [run_cons_of_refuse hfeed] at h
    cases h

/-- At the end of the text only a symbol outside all parentheses is complete. -/
theorem completes_nil_of_run_eq_ok {s : State} (h : run s position [] = .ok out) :
    Completes s [] out := by
  obtain ⟨frames, focus⟩ := s
  cases focus with
  | gap => cases frames <;> cases h
  | connective read => cases frames <;> cases h
  | symbol read =>
    cases frames with
    | nil =>
      obtain rfl := Except.ok.inj h
      exact ⟨[], [], rfl, nofun, nofun, by rw [List.append_nil]; rfl⟩
    | cons frame frames => cases h

/-- A reading that succeeds has found all that its state needed in the text. -/
theorem completes_of_run_eq_ok {s : State} (h : run s position text = .ok out) :
    Completes s text out := by
  -- Each character leads to another state, so what is carried along is the grammar of
  -- all that a state may still read, not of the formula it is within.
  induction text generalizing s position with
  | nil => exact completes_nil_of_run_eq_ok h
  | cons c cs ih =>
    obtain ⟨frames, focus⟩ := s
    cases focus with
    | gap => exact completes_gap_of_run_cons (fun s position => ih) h
    | connective read => exact completes_connective_of_run_cons (fun s position => ih) h
    | symbol read => exact completes_symbol_of_run_cons (fun s position => ih) h

end Reader

/-- A line is read as what it denotes, and no other line is read. -/
theorem read_eq_ok_iff_lineDenotes {line : String} {r : Reading} :
    read line = .ok r ↔ LineDenotes line.toList r.formula r.rest := by
  rw [read_eq_ok_iff]
  exact ⟨completes_of_run_eq_ok, LineDenotes.run_eq⟩

theorem parse_eq_ok_iff {line : String} {f : Formula} :
    parse line = .ok f ↔ ∃ rest, LineDenotes line.toList f rest := by
  rw [parse]
  constructor
  · intro h
    cases hread : read line with
    | error cause =>
      rw [hread] at h
      cases h
    | ok r =>
      rw [hread] at h
      obtain rfl := Except.ok.inj h
      exact ⟨r.rest, read_eq_ok_iff_lineDenotes.mp hread⟩
  · rintro ⟨rest, hline⟩
    rw [read_eq_ok_iff_lineDenotes (r := ⟨f, rest⟩) |>.mpr hline]
    rfl

theorem LineDenotes.unique {line rest later : List Char} {f g : Formula}
    (hf : LineDenotes line f rest) (hg : LineDenotes line g later) : f = g ∧ rest = later := by
  have hsame := hf.run_eq.symm.trans hg.run_eq
  exact Prod.mk.inj (Except.ok.inj hsame)

/-- A line is accepted exactly if it denotes a formula. Both that formula and the
    rest of the line are unique. The rest is reported where it is more than spaces,
    from its first other character on. -/
theorem parse_iff_lineDenotes (line : String) :
    (∀ f, parse line = .ok f ↔ ∃ rest, LineDenotes line.toList f rest) ∧
    (∀ f g rest later, LineDenotes line.toList f rest → LineDenotes line.toList g later →
      f = g ∧ rest = later) ∧
    ∀ f rest, LineDenotes line.toList f rest →
      read line = .ok ⟨f, rest⟩ ∧
      ((∃ t, (Reading.mk f rest).trailing? = some t) ↔ ∃ c ∈ rest, c ≠ ' ') ∧
      ∀ t, (Reading.mk f rest).trailing? = some t → t.formula = f ∧
        ∃ spaces, rest = List.replicate spaces ' ' ++ t.text.toList ∧
          t.text.toList.head? ≠ some ' ' := by
  refine ⟨fun f => parse_eq_ok_iff, fun f g rest later => LineDenotes.unique, ?_⟩
  intro f rest hline
  exact ⟨read_eq_ok_iff_lineDenotes.mpr hline, Reading.exists_trailing?_eq_some_iff,
    fun t => Reading.rest_eq_of_trailing?⟩

/-- No space need stand behind a parenthesis, and a closing one may be left over. -/
theorem parse_iff_lineDenotes_adjacent :
    let line := " (OR (not P)Q ) )x"
    let f := Formula.apply .disj [(symbol "P").negate, symbol "Q"]
    let rest := [' ', ')', 'x']
    LineDenotes line.toList f rest ∧ parse line = .ok f ∧ read line = .ok ⟨f, rest⟩ ∧
      (Reading.mk f rest).trailing? = some ⟨")x", f⟩ := by
  intro line f rest
  have hrun : Reader.run Reader.start 0 line.toList = .ok (f, rest) := by decide +kernel
  have hline : LineDenotes line.toList f rest := Reader.completes_of_run_eq_ok hrun
  obtain ⟨haccepts, _, hrest⟩ := parse_iff_lineDenotes line
  exact ⟨hline, (haccepts f).mpr ⟨rest, hline⟩, (hrest f rest hline).1, by decide +kernel⟩

end Propositional.Formula
