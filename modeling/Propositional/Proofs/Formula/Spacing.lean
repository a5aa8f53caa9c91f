import Propositional.Proofs.Formula.Steps

namespace Propositional.Formula

/-- Two texts are the same but for the lengths of their runs of spaces. Where one has a run the
    other has one as well, so none is empty. -/
inductive SpacedAlike : List Char → List Char → Prop
  | nil : SpacedAlike [] []
  | keep (c : Char) {cs ds : List Char} (h : SpacedAlike cs ds) : SpacedAlike (c :: cs) (c :: ds)
  | spaces {m n : Nat} {cs ds : List Char} (hm : 0 < m) (hn : 0 < n) (h : SpacedAlike cs ds) :
      SpacedAlike (List.replicate m ' ' ++ cs) (List.replicate n ' ' ++ ds)

/-- Two lines are spaced alike behind the spaces that either of them may begin with. -/
def Respaced (line other : List Char) : Prop :=
  ∃ m n cs ds, line = List.replicate m ' ' ++ cs ∧ other = List.replicate n ' ' ++ ds ∧
    SpacedAlike cs ds

theorem SpacedAlike.refl (cs : List Char) : SpacedAlike cs cs := by
  induction cs with
  | nil => exact .nil
  | cons c cs ih => exact .keep c ih

theorem SpacedAlike.append {front others cs ds : List Char} (hfront : SpacedAlike front others)
    (h : SpacedAlike cs ds) : SpacedAlike (front ++ cs) (others ++ ds) := by
  induction hfront with
  | nil => exact h
  | keep c _ ih => exact .keep c ih
  | spaces hm hn _ ih =>
    rw [List.append_assoc, List.append_assoc]
    exact .spaces hm hn ih

/-- Texts that are spaced alike hold the same characters other than the space. -/
theorem SpacedAlike.mem_iff {cs ds : List Char} (h : SpacedAlike cs ds) {c : Char} (hc : c ≠ ' ') :
    c ∈ cs ↔ c ∈ ds := by
  induction h with
  | nil => rfl
  | keep d _ ih => rw [List.mem_cons, List.mem_cons, ih]
  | spaces _ _ _ ih => simp [hc, ih]

namespace Reader

variable {s : State} {frames : List Frame} {cs ds front others : List Char} {position later : Nat}
  {result result' : Except ParseError (Formula × List Char)}

/-- What reading two texts spaced alike comes to: the same formula, or the same error at places that
    correspond. These are the ends of the texts, or a character that divides both into parts spaced
    alike. -/
inductive Alike (cs ds : List Char) (position later : Nat) :
    Except ParseError (Formula × List Char) → Except ParseError (Formula × List Char) → Prop
  | ok {f : Formula} {rest rest' : List Char} (hrest : SpacedAlike rest rest') :
      Alike cs ds position later (.ok (f, rest)) (.ok (f, rest'))
  | emptyInput : Alike cs ds position later (.error .emptyInput) (.error .emptyInput)
  | unexpectedEnd :
      Alike cs ds position later (.error (.unexpectedEnd (position + byteCount cs)))
        (.error (.unexpectedEnd (later + byteCount ds)))
  | unexpectedCharacter {c : Char} {front front' behind behind' : List Char}
      (hcs : cs = front ++ c :: behind) (hds : ds = front' ++ c :: behind')
      (hfront : SpacedAlike front front') (hbehind : SpacedAlike behind behind') :
      Alike cs ds position later (.error (.unexpectedCharacter c (position + byteCount front)))
        (.error (.unexpectedCharacter c (later + byteCount front')))

/-- What stands in front in both texts moves the places of errors by its own length. -/
theorem Alike.append (hfront : SpacedAlike front others)
    (h : Alike cs ds (position + byteCount front) (later + byteCount others) result result') :
    Alike (front ++ cs) (others ++ ds) position later result result' := by
  cases h with
  | ok hrest => exact .ok hrest
  | emptyInput => exact .emptyInput
  | unexpectedEnd =>
    rw [Nat.add_assoc, Nat.add_assoc, ← byteCount_append, ← byteCount_append]
    exact .unexpectedEnd
  | unexpectedCharacter hcs hds hpart hbehind =>
    rw [Nat.add_assoc, Nat.add_assoc, ← byteCount_append, ← byteCount_append]
    refine .unexpectedCharacter ?_ ?_ (hfront.append hpart) hbehind
    · rw [hcs, List.append_assoc]
    · rw [hds, List.append_assoc]

theorem run_replicate_space {m : Nat} (hm : 0 < m) (hfeed : feed s ' ' = .next ⟨frames, .gap⟩)
    (position : Nat) (cs : List Char) :
    run s position (List.replicate m ' ' ++ cs) = run ⟨frames, .gap⟩ (position + m) cs := by
  obtain ⟨m, rfl⟩ := Nat.exists_eq_add_one.mpr hm
  have hsize : ' '.utf8Size = 1 := rfl
  rw [List.replicate_succ, List.cons_append, run_cons_of_next hfeed, run_gap_replicate, hsize,
    Nat.add_assoc, Nat.add_comm 1]

theorem run_replicate_space_of_symbol {m : Nat} (hm : 0 < m) (word : List Char) (position : Nat)
    (cs : List Char) :
    run ⟨[], .symbol word⟩ position (List.replicate m ' ' ++ cs) =
      .ok (.symbol (String.ofList word.reverse), List.replicate m ' ' ++ cs) := by
  obtain ⟨m, rfl⟩ := Nat.exists_eq_add_one.mpr hm
  exact run_cons_of_endsBefore (feed_symbol_of_endsWord_top (.inl rfl))

theorem alike_nil (s : State) (position later : Nat) :
    Alike [] [] position later (run s position []) (run s later []) := by
  obtain rfl | ⟨word, rfl⟩ | hopen := s.cases_of_depth
  · exact .emptyInput
  · exact .ok .nil
  · rw [run_of_depth_pos hopen, run_of_depth_pos hopen]
    exact .unexpectedEnd

/-- From any state on, two texts spaced alike are read alike. -/
theorem alike_run (h : SpacedAlike cs ds) (s : State) (position later : Nat) :
    Alike cs ds position later (run s position cs) (run s later ds) := by
  -- Both readings go through the same states, though they spend different numbers of characters
  -- between items, so the statement is for any two positions.
  induction h generalizing s position later with
  | nil => exact alike_nil s position later
  | @keep c cs ds h ih =>
    cases hfeed : feed s c with
    | next t =>
      rw [run_cons_of_next hfeed, run_cons_of_next hfeed]
      exact (ih t _ _).append (.refl [c])
    | endsWith f =>
      rw [run_cons_of_endsWith hfeed, run_cons_of_endsWith hfeed]
      exact .ok h
    | endsBefore f =>
      rw [run_cons_of_endsBefore hfeed, run_cons_of_endsBefore hfeed]
      exact .ok (.keep c h)
    | refuse =>
      rw [run_cons_of_refuse hfeed, run_cons_of_refuse hfeed]
      exact .unexpectedCharacter rfl rfl .nil h
  | @spaces m n cs ds hm hn h ih =>
    have hspaces : SpacedAlike (List.replicate m ' ') (List.replicate n ' ') := by
      simpa using SpacedAlike.spaces hm hn .nil
    obtain ⟨word, rfl, _⟩ | ⟨frames, _, hfeed⟩ := feed_cases_of_endsWord (.inl rfl) s
    · rw [run_replicate_space_of_symbol hm, run_replicate_space_of_symbol hn]
      exact .ok (.spaces hm hn h)
    · rw [run_replicate_space hm hfeed, run_replicate_space hn hfeed]
      have hlater := ih ⟨frames, .gap⟩ (position + m) (later + n)
      apply Alike.append hspaces
      rwa [byteCount_replicate rfl, byteCount_replicate rfl]

end Reader

open Reader

/-- Something is left over behind both of two texts that are spaced alike, or behind neither. -/
theorem SpacedAlike.trailing?_isSome_eq {rest rest' : List Char} (h : SpacedAlike rest rest')
    (f : Formula) :
    (Reading.mk f rest).trailing?.isSome = (Reading.mk f rest').trailing?.isSome := by
  rw [Bool.eq_iff_iff, Option.isSome_iff_exists, Option.isSome_iff_exists,
    Reading.exists_trailing?_eq_some_iff, Reading.exists_trailing?_eq_some_iff]
  constructor
  · rintro ⟨c, hmem, hc⟩
    exact ⟨c, (h.mem_iff hc).mp hmem, hc⟩
  · rintro ⟨c, hmem, hc⟩
    exact ⟨c, (h.mem_iff hc).mpr hmem, hc⟩

variable {line other : String} {m n : Nat} {cs ds : List Char}

theorem run_of_leading_spaces (h : line.toList = List.replicate m ' ' ++ cs) :
    run start 0 line.toList = run start m cs := by
  rw [h, start, run_gap_replicate, Nat.zero_add]

theorem utf8ByteSize_of_leading_spaces (h : line.toList = List.replicate m ' ' ++ cs) :
    line.utf8ByteSize = m + byteCount cs := by
  rw [← byteCount_toList, h, byteCount_append, byteCount_replicate rfl]

/-- How many spaces stand in one place makes no difference, as long as there are any, and in front
    of a line there may also be none. Two lines that differ in this only give the same formula, with
    input left over behind both or behind neither; or both are empty; or both end too early; or the
    same character is unexpected in both, where what stands in front of it and behind it differs in
    nothing else either. -/
theorem parse_respaced (h : Respaced line.toList other.toList) :
    (∃ f r q, parse line = .ok f ∧ parse other = .ok f ∧ read line = .ok r ∧ read other = .ok q ∧
      r.trailing?.isSome = q.trailing?.isSome) ∨
    (parse line = .error .emptyInput ∧ parse other = .error .emptyInput) ∨
    (parse line = .error (.unexpectedEnd line.utf8ByteSize) ∧
      parse other = .error (.unexpectedEnd other.utf8ByteSize)) ∨
    ∃ (c : Char) (front front' behind behind' : String),
      line = front ++ String.singleton c ++ behind ∧
      other = front' ++ String.singleton c ++ behind' ∧
      Respaced front.toList front'.toList ∧ SpacedAlike behind.toList behind'.toList ∧
      parse line = .error (.unexpectedCharacter c front.utf8ByteSize) ∧
      parse other = .error (.unexpectedCharacter c front'.utf8ByteSize) := by
  obtain ⟨m, n, cs, ds, hline, hother, halike⟩ := h
  have hresults := alike_run halike start m n
  rw [← run_of_leading_spaces hline, ← run_of_leading_spaces hother] at hresults
  generalize hfirst : run start 0 line.toList = first at hresults
  generalize hsecond : run start 0 other.toList = second at hresults
  cases hresults with
  | @ok f rest rest' hrest =>
    exact .inl ⟨f, ⟨f, rest⟩, ⟨f, rest'⟩, parse_eq_ok_of_run hfirst, parse_eq_ok_of_run hsecond,
      read_eq_ok_iff.mpr hfirst, read_eq_ok_iff.mpr hsecond, hrest.trailing?_isSome_eq f⟩
  | emptyInput =>
    exact .inr (.inl ⟨parse_eq_error_iff.mpr hfirst, parse_eq_error_iff.mpr hsecond⟩)
  | unexpectedEnd =>
    rw [← utf8ByteSize_of_leading_spaces hline] at hfirst
    rw [← utf8ByteSize_of_leading_spaces hother] at hsecond
    exact .inr (.inr (.inl ⟨parse_eq_error_iff.mpr hfirst, parse_eq_error_iff.mpr hsecond⟩))
  | @unexpectedCharacter c front front' behind behind' hcs hds hfront hbehind =>
    let begin := String.ofList (List.replicate m ' ' ++ front)
    let begin' := String.ofList (List.replicate n ' ' ++ front')
    have hbegin : begin.toList = List.replicate m ' ' ++ front := String.toList_ofList
    have hbegin' : begin'.toList = List.replicate n ' ' ++ front' := String.toList_ofList
    rw [← utf8ByteSize_of_leading_spaces hbegin] at hfirst
    rw [← utf8ByteSize_of_leading_spaces hbegin'] at hsecond
    refine .inr (.inr (.inr ⟨c, begin, begin', String.ofList behind, String.ofList behind', ?_, ?_,
      ⟨m, n, front, front', hbegin, hbegin', hfront⟩, ?_, parse_eq_error_iff.mpr hfirst,
      parse_eq_error_iff.mpr hsecond⟩))
    · rw [← String.toList_inj, hline, hcs]
      simp [begin]
    · rw [← String.toList_inj, hother, hds]
      simp [begin']
    · rwa [String.toList_ofList, String.toList_ofList]

/-- Runs of three lengths and spaces in front of one line only. Behind the inner parenthesis a space
    has to stay, since without any the letter there would be the word of a connective. -/
theorem parse_respaced_misplaced :
    let line := "  (and ( P)   Qé"
    let other := "(and (   P) Qé"
    Respaced line.toList other.toList ∧
      parse line = .error (.unexpectedCharacter 'é' 15) ∧
      parse other = .error (.unexpectedCharacter 'é' 13) ∧
      ∃ (c : Char) (front front' behind behind' : String),
        line = front ++ String.singleton c ++ behind ∧
        other = front' ++ String.singleton c ++ behind' ∧
        Respaced front.toList front'.toList ∧ SpacedAlike behind.toList behind'.toList ∧
        parse line = .error (.unexpectedCharacter c front.utf8ByteSize) ∧
        parse other = .error (.unexpectedCharacter c front'.utf8ByteSize) := by
  intro line other
  have hhead : SpacedAlike "(and (".toList "(and (".toList := .refl _
  have hmiddle : SpacedAlike "P)".toList "P)".toList := .refl _
  have htail : SpacedAlike "Qé".toList "Qé".toList := .refl _
  have halike := hhead.append
    (.spaces (m := 1) (n := 3) Nat.one_pos (by decide) (hmiddle.append
      (.spaces (m := 3) (n := 1) (by decide) Nat.one_pos htail)))
  have hspaced : Respaced line.toList other.toList :=
    ⟨2, 0, _, _, by decide +kernel, by decide +kernel, halike⟩
  have hline : parse line = .error (.unexpectedCharacter 'é' 15) := by decide +kernel
  have hother : parse other = .error (.unexpectedCharacter 'é' 13) := by decide +kernel
  obtain ⟨_, _, _, hok, _⟩ | ⟨hempty, _⟩ | ⟨hend, _⟩ | hplaces := parse_respaced hspaced
  · cases hok.symm.trans hline
  · cases hempty.symm.trans hline
  · cases hend.symm.trans hline
  · exact ⟨hspaced, hline, hother, hplaces⟩

end Propositional.Formula
