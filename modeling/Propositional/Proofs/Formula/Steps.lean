import Mathlib.Data.String.Basic
import Propositional.Proofs.Formula.Acceptance

namespace Propositional.Formula

namespace Reader

variable {s t u : State} {c : Char} {cs ds word : List Char} {f : Formula}

theorem byteCount_eq_utf8Len (cs : List Char) : byteCount cs = String.utf8Len cs := by
  induction cs with
  | nil => rfl
  | cons c cs ih => rw [byteCount, ih, String.utf8Len_cons, Nat.add_comm]

theorem byteCount_toList (text : String) : byteCount text.toList = text.utf8ByteSize := by
  rw [byteCount_eq_utf8Len, String.utf8Len_toList]

theorem byteCount_append (cs ds : List Char) :
    byteCount (cs ++ ds) = byteCount cs + byteCount ds := by
  simp only [byteCount_eq_utf8Len, String.utf8Len_append]

theorem byteCount_replicate (hc : c.utf8Size = 1) (count : Nat) :
    byteCount (List.replicate count c) = count := by
  induction count with
  | zero => rfl
  | succ count ih => rw [List.replicate_succ, byteCount, ih, hc, Nat.add_comm]

/-- A character of a word is taken up in every state, and opens or closes nothing. -/
theorem exists_feed_eq_next_of_isWordChar (hc : Text.isWordChar c = true) (s : State) :
    ∃ t, feed s c = .next t ∧ t.depth = s.depth := by
  obtain ⟨frames, focus⟩ := s
  cases focus with
  | gap => exact ⟨_, feedGap_of_isWordChar hc, rfl⟩
  | connective read => exact ⟨_, feed_connective_of_isWordChar hc, rfl⟩
  | symbol read => exact ⟨_, feed_symbol_of_isWordChar hc, rfl⟩

/-- Where a word may end, a character counts as one between items, at the same depth. Only behind
    a symbol outside all parentheses it ends the reading. -/
theorem feed_cases_of_endsWord (hc : EndsWord c) (s : State) :
    (∃ word, s = ⟨[], .symbol word⟩ ∧
      feed s c = .endsBefore (.symbol (String.ofList word.reverse))) ∨
    ∃ frames, frames.length = s.depth ∧ feed s c = feed ⟨frames, .gap⟩ c := by
  obtain ⟨frames, focus⟩ := s
  cases focus with
  | gap => exact .inr ⟨frames, rfl, rfl⟩
  | connective read => exact .inr ⟨_, rfl, feed_connective_of_endsWord hc⟩
  | symbol read =>
    cases frames with
    | nil => exact .inl ⟨read, rfl, feed_symbol_of_endsWord_top hc⟩
    | cons frame frames =>
      exact .inr ⟨frame.add (.symbol (String.ofList read.reverse)) :: frames, rfl,
        feed_symbol_of_endsWord hc frame⟩

/-- Any other character is refused, unless it is an opening parenthesis between items. -/
theorem feed_cases_of_other (hword : ¬ Text.isWordChar c = true) (hends : ¬ EndsWord c)
    (s : State) :
    (c = '(' ∧ ∃ frames, s = ⟨frames, .gap⟩ ∧ feed s c = .next ⟨frames, .connective []⟩) ∨
      feed s c = .refuse := by
  obtain ⟨frames, focus⟩ := s
  have hfalse : Text.isWordChar c = false := Bool.eq_false_iff.mpr hword
  cases focus with
  | connective read => exact .inr (feed_connective_of_not_endsWord hfalse hends)
  | symbol read => exact .inr (feed_symbol_of_not_endsWord hfalse hends)
  | gap =>
    by_cases hopen : c = '('
    · subst hopen
      exact .inl ⟨rfl, frames, rfl, rfl⟩
    · obtain ⟨hspace, hclose⟩ := not_or.mp hends
      exact .inr (feedGap_eq_refuse hspace hopen hclose hword)

/-- All that a character can do in a state: go on with a word, stand between items and open or close
    an application there, end the reading, or be refused. -/
inductive Effect (s : State) (c : Char) : Step → Prop
  | word {t : State} (hc : Text.isWordChar c = true) (hdepth : t.depth = s.depth) :
      Effect s c (.next t)
  | space {frames : List Frame} (hc : c = ' ') (hdepth : frames.length = s.depth) :
      Effect s c (.next ⟨frames, .gap⟩)
  | opens {frames : List Frame} (hc : c = '(') (hs : s = ⟨frames, .gap⟩) :
      Effect s c (.next ⟨frames, .connective []⟩)
  | closes {t : State} (hc : c = ')') (hdepth : t.depth + 1 = s.depth) (hopen : 0 < t.depth) :
      Effect s c (.next t)
  | completes {f : Formula} (hc : c = ')') (hdepth : s.depth = 1) : Effect s c (.endsWith f)
  | missing (hc : c = ')') (hdepth : s.depth = 0) : Effect s c (.endsBefore (.symbol ""))
  | symbol {name : String} (hc : EndsWord c) (hdepth : s.depth = 0) :
      Effect s c (.endsBefore (.symbol name))
  | refuse (hword : ¬ Text.isWordChar c = true) (hends : ¬ EndsWord c) : Effect s c .refuse

theorem effect_feed (s : State) (c : Char) : Effect s c (feed s c) := by
  by_cases hword : Text.isWordChar c = true
  · obtain ⟨t, hfeed, hdepth⟩ := exists_feed_eq_next_of_isWordChar hword s
    rw [hfeed]
    exact .word hword hdepth
  by_cases hends : EndsWord c
  · obtain ⟨word, rfl, hfeed⟩ | ⟨frames, hdepth, hfeed⟩ := feed_cases_of_endsWord hends s
    · rw [hfeed]
      exact .symbol hends rfl
    · rw [hfeed]
      obtain rfl | rfl := hends
      · exact .space rfl hdepth
      · match frames with
        | [] => exact .missing rfl hdepth.symm
        | [frame] => exact .completes rfl hdepth.symm
        | frame :: outer :: frames => exact .closes rfl hdepth (Nat.succ_pos _)
  · obtain ⟨rfl, frames, rfl, hfeed⟩ | hfeed := feed_cases_of_other hword hends s
    · rw [hfeed]
      exact .opens rfl rfl
    · rw [hfeed]
      exact .refuse hword hends

/-- What is refused belongs to no word and may not follow one. -/
theorem not_endsWord_of_feed_eq_refuse (h : feed s c = .refuse) :
    ¬ Text.isWordChar c = true ∧ ¬ EndsWord c := by
  have heffect := effect_feed s c
  rw [h] at heffect
  cases heffect with
  | refuse hword hends => exact ⟨hword, hends⟩

/-- A formula that ends in front of a character is a symbol. -/
theorem eq_symbol_of_feed_eq_endsBefore (h : feed s c = .endsBefore f) :
    ∃ name, f = .symbol name := by
  have heffect := effect_feed s c
  rw [h] at heffect
  cases heffect with
  | missing _ _ => exact ⟨"", rfl⟩
  | symbol _ _ => exact ⟨_, rfl⟩

/-- A formula that ends with a character is an application that this character closes. -/
theorem depth_eq_one_of_feed_eq_endsWith (h : feed s c = .endsWith f) : c = ')' ∧ s.depth = 1 := by
  have heffect := effect_feed s c
  rw [h] at heffect
  cases heffect with
  | completes hc hdepth => exact ⟨hc, hdepth⟩

/-- Where reading goes on, it is one parenthesis deeper behind an opening one and one less deep
    behind a closing one. -/
theorem depth_of_feed_eq_next (h : feed s c = .next t) :
    t.depth + [c].count ')' = s.depth + [c].count '(' := by
  have heffect := effect_feed s c
  rw [h] at heffect
  cases heffect with
  | word hc hdepth =>
    have hopen : c ≠ '(' := by rintro rfl; cases hc
    have hclose : c ≠ ')' := by rintro rfl; cases hc
    simp [hdepth, hopen, hclose]
  | space hc hdepth =>
    subst hc
    exact hdepth
  | opens hc hs =>
    subst hc hs
    rfl
  | closes hc hdepth _ =>
    subst hc
    exact hdepth

/-- With a parenthesis open, a closing one completes the formula or leaves another one open. -/
theorem feed_close_cases (hopen : 0 < s.depth) :
    (s.depth = 1 ∧ ∃ f, feed s ')' = .endsWith f) ∨
      ∃ t, feed s ')' = .next t ∧ 0 < t.depth ∧ t.depth + 1 = s.depth := by
  have heffect := effect_feed s ')'
  generalize feed s ')' = step at heffect
  cases heffect with
  | word hc _ => cases hc
  | space hc _ => cases hc
  | opens hc _ => cases hc
  | closes _ hdepth hrest => exact .inr ⟨_, rfl, hrest, hdepth⟩
  | completes _ hdepth => exact .inl ⟨hdepth, _, rfl⟩
  | missing _ hdepth => exact absurd hdepth hopen.ne'
  | symbol _ hdepth => exact absurd hdepth hopen.ne'
  | refuse _ hends => exact absurd (.inr rfl) hends

/-- Some characters are all taken up on the way from one state to another. -/
inductive Leads : State → List Char → State → Prop
  | nil (s : State) : Leads s [] s
  | cons {s t u : State} {c : Char} {cs : List Char} (hfeed : feed s c = .next t)
      (hlater : Leads t cs u) : Leads s (c :: cs) u

theorem Leads.run_append (h : Leads s cs t) (position : Nat) (ds : List Char) :
    run s position (cs ++ ds) = run t (position + byteCount cs) ds := by
  induction h generalizing position with
  | nil s => rfl
  | cons hfeed _ ih => rw [List.cons_append, run_cons_of_next hfeed, ih, byteCount, Nat.add_assoc]

theorem Leads.run_eq (h : Leads s cs t) (position : Nat) :
    run s position cs = run t (position + byteCount cs) [] := by
  have hrun := h.run_append position []
  rwa [List.append_nil] at hrun

/-- The way over some characters leads over those in front first. -/
theorem Leads.exists_of_append (h : Leads s (cs ++ ds) u) : ∃ t, Leads s cs t ∧ Leads t ds u := by
  induction cs generalizing s with
  | nil => exact ⟨s, .nil s, h⟩
  | cons c cs ih =>
    cases h with
    | cons hfeed hlater =>
      obtain ⟨t, hfront, hbehind⟩ := ih hlater
      exact ⟨t, .cons hfeed hfront, hbehind⟩

/-- As many parentheses are open in a state as were opened on the way to it and not closed. -/
theorem Leads.depth_eq (h : Leads s cs t) : t.depth + cs.count ')' = s.depth + cs.count '(' := by
  induction h with
  | nil s => rfl
  | @cons s t u c cs hfeed _ ih =>
    have hstep := depth_of_feed_eq_next hfeed
    have hclosed : (c :: cs).count ')' = [c].count ')' + cs.count ')' :=
      @List.count_append _ _ ')' [c] cs
    have hopened : (c :: cs).count '(' = [c].count '(' + cs.count '(' :=
      @List.count_append _ _ '(' [c] cs
    omega

/-- A symbol outside all parentheses goes on as one or ends. -/
theorem eq_symbol_of_feed_eq_next (h : feed ⟨[], .symbol word⟩ c = .next t) :
    ∃ other, t = ⟨[], .symbol other⟩ := by
  by_cases hword : Text.isWordChar c = true
  · rw [feed_symbol_of_isWordChar hword] at h
    exact ⟨_, (Step.next.inj h).symm⟩
  by_cases hends : EndsWord c
  · rw [feed_symbol_of_endsWord_top hends] at h
    cases h
  · rw [feed_symbol_of_not_endsWord (Bool.eq_false_iff.mpr hword) hends] at h
    cases h

/-- Behind a symbol outside all parentheses nothing else begins. -/
theorem Leads.eq_symbol (h : Leads ⟨[], .symbol word⟩ cs t) : ∃ other, t = ⟨[], .symbol other⟩ := by
  generalize hs : (⟨[], .symbol word⟩ : State) = s at h
  induction h generalizing word with
  | nil s => exact ⟨word, hs.symm⟩
  | cons hfeed _ ih =>
    subst hs
    obtain ⟨other, rfl⟩ := eq_symbol_of_feed_eq_next hfeed
    exact ih rfl

theorem State.cases_of_depth (s : State) :
    s = ⟨[], .gap⟩ ∨ (∃ word, s = ⟨[], .symbol word⟩) ∨ 0 < s.depth := by
  obtain ⟨frames, focus⟩ := s
  cases focus with
  | connective word => exact .inr (.inr (Nat.succ_pos _))
  | gap =>
    cases frames with
    | nil => exact .inl rfl
    | cons frame frames => exact .inr (.inr (Nat.succ_pos _))
  | symbol word =>
    cases frames with
    | nil => exact .inr (.inl ⟨word, rfl⟩)
    | cons frame frames => exact .inr (.inr (Nat.succ_pos _))

theorem run_of_depth_pos (hopen : 0 < s.depth) (position : Nat) :
    run s position [] = .error (.unexpectedEnd position) := by
  rw [run, finish_of_depth_pos hopen]
  rfl

/-- All that can become of reading some characters from a state on. Either it takes them all up, and
    the state then reached decides, or it stops at the first one behind which it does not go on. -/
inductive Ends (s : State) (position : Nat) (cs : List Char) :
    Except ParseError (Formula × List Char) → Prop
  | empty (h : Leads s cs ⟨[], .gap⟩) : Ends s position cs (.error .emptyInput)
  | symbol {word : List Char} (h : Leads s cs ⟨[], .symbol word⟩) :
      Ends s position cs (.ok (.symbol (String.ofList word.reverse), []))
  | unfinished {t : State} (h : Leads s cs t) (hopen : 0 < t.depth) :
      Ends s position cs (.error (.unexpectedEnd (position + byteCount cs)))
  | endsWith {t : State} {front behind : List Char} {c : Char} {f : Formula}
      (hcs : cs = front ++ c :: behind) (h : Leads s front t) (hfeed : feed t c = .endsWith f) :
      Ends s position cs (.ok (f, behind))
  | endsBefore {t : State} {front behind : List Char} {c : Char} {f : Formula}
      (hcs : cs = front ++ c :: behind) (h : Leads s front t) (hfeed : feed t c = .endsBefore f) :
      Ends s position cs (.ok (f, c :: behind))
  | refuse {t : State} {front behind : List Char} {c : Char}
      (hcs : cs = front ++ c :: behind) (h : Leads s front t) (hfeed : feed t c = .refuse) :
      Ends s position cs (.error (.unexpectedCharacter c (position + byteCount front)))

theorem Ends.cons {result : Except ParseError (Formula × List Char)} {position : Nat}
    (hfeed : feed s c = .next t) (h : Ends t (position + c.utf8Size) cs result) :
    Ends s position (c :: cs) result := by
  cases h with
  | empty h => exact .empty (.cons hfeed h)
  | symbol h => exact .symbol (.cons hfeed h)
  | unfinished h hopen =>
    rw [Nat.add_assoc]
    exact .unfinished (.cons hfeed h) hopen
  | endsWith hcs h hlast =>
    exact .endsWith (by rw [hcs, List.cons_append]) (.cons hfeed h) hlast
  | endsBefore hcs h hlast =>
    exact .endsBefore (by rw [hcs, List.cons_append]) (.cons hfeed h) hlast
  | @refuse _ front behind last hcs h hlast =>
    have hsplit : c :: cs = (c :: front) ++ last :: behind := by rw [hcs, List.cons_append]
    rw [Nat.add_assoc]
    exact .refuse hsplit (.cons hfeed h) hlast

theorem ends_run (s : State) (position : Nat) (cs : List Char) :
    Ends s position cs (run s position cs) := by
  induction cs generalizing s position with
  | nil =>
    obtain rfl | ⟨word, rfl⟩ | hopen := s.cases_of_depth
    · exact .empty (.nil _)
    · exact .symbol (.nil _)
    · rw [run_of_depth_pos hopen]
      exact .unfinished (.nil s) hopen
  | cons c cs ih =>
    cases hfeed : feed s c with
    | next t =>
      rw [run_cons_of_next hfeed]
      exact .cons hfeed (ih t _)
    | endsWith f =>
      rw [run_cons_of_endsWith hfeed]
      exact .endsWith (List.nil_append _).symm (.nil s) hfeed
    | endsBefore f =>
      rw [run_cons_of_endsBefore hfeed]
      exact .endsBefore (List.nil_append _).symm (.nil s) hfeed
    | refuse =>
      rw [run_cons_of_refuse hfeed]
      exact .refuse (List.nil_append _).symm (.nil s) hfeed

end Reader

open Reader

variable {line : String} {f : Formula}

theorem parse_eq_error_iff {e : ParseError} :
    parse line = .error e ↔ run start 0 line.toList = .error e := by
  rw [parse, read]
  cases run start 0 line.toList <;> simp [Except.map]

theorem parse_eq_ok_of_run {rest : List Char} (h : run start 0 line.toList = .ok (f, rest)) :
    parse line = .ok f := by
  rw [parse, read_eq_ok_iff (r := ⟨f, rest⟩) |>.mpr h]
  rfl

end Propositional.Formula
