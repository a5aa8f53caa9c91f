import Propositional.Proofs.Formula.Unfinished

namespace Propositional.Formula

open Reader

variable {line front behind early later : String} {c : Char} {position : Nat} {t : State}

/-- Where all of a text is taken up, it may be too short but holds no wrong character. -/
theorem parse_ne_unexpectedCharacter (h : Leads start early.toList t) :
    parse early ≠ .error (.unexpectedCharacter c position) := by
  rw [ne_eq, parse_eq_error_iff, h.run_eq]
  obtain rfl | ⟨word, rfl⟩ | hopen := t.cases_of_depth
  · nofun
  · nofun
  · rw [run_of_depth_pos hopen]
    nofun

/-- Where all of a text is taken up, more text completes it to a line that is read. -/
theorem exists_parse_append_eq_ok (h : Leads start early.toList t) :
    ∃ more f, parse (early ++ more) = .ok f := by
  obtain ⟨more, hmore⟩ := exists_run_eq_ok t
  obtain ⟨⟨f, rest⟩, hrun⟩ := hmore (0 + byteCount early.toList)
  have hwhole : run start 0 (early ++ String.ofList more).toList = .ok (f, rest) := by
    rw [String.toList_append, String.toList_ofList, h.run_append, hrun]
  exact ⟨String.ofList more, f, parse_eq_ok_of_run hwhole⟩

/-- Whatever stands behind a wrong character, it is reported with the bytes in front of it. -/
theorem parse_of_refuse (h : Leads start front.toList t) (hfeed : feed t c = .refuse)
    (other : String) :
    parse (front ++ String.singleton c ++ other) =
      .error (.unexpectedCharacter c front.utf8ByteSize) := by
  have hline : (front ++ String.singleton c ++ other).toList =
      front.toList ++ c :: other.toList := by
    simp
  rw [parse_eq_error_iff, hline, h.run_append, run_cons_of_refuse hfeed, byteCount_toList,
    Nat.zero_add]

/-- A wrong character is reported in the state that all characters in front of it lead to. -/
theorem exists_leads_of_unexpectedCharacter
    (h : parse line = .error (.unexpectedCharacter c position)) :
    ∃ (front behind : String) (t : State), line = front ++ String.singleton c ++ behind ∧
      front.utf8ByteSize = position ∧ Leads start front.toList t ∧ feed t c = .refuse := by
  have hends := ends_run start 0 line.toList
  rw [parse_eq_error_iff.mp h] at hends
  generalize hcs : line.toList = cs at hends
  generalize hresult : ParseError.unexpectedCharacter c position = e at hends
  cases hends with
  | empty _ => cases hresult
  | unfinished _ _ => cases hresult
  | @refuse t front behind d hsplit hleads hfeed =>
    obtain ⟨rfl, rfl⟩ := ParseError.unexpectedCharacter.inj hresult
    refine ⟨String.ofList front, String.ofList behind, t, ?_, ?_, ?_, hfeed⟩
    · rw [← String.toList_inj, hcs, hsplit]
      simp
    · rw [← byteCount_toList, String.toList_ofList, Nat.zero_add]
    · rwa [String.toList_ofList]

/-- A beginning of a line either ends in front of a given character or holds it with all that stands
    in front of it. -/
theorem beginning_cases (h : front ++ String.singleton c ++ behind = early ++ later) :
    (∃ more, front = early ++ more) ∨ ∃ more, early = front ++ String.singleton c ++ more := by
  have hchars : front.toList ++ c :: behind.toList = early.toList ++ later.toList := by
    rw [← String.toList_append, ← h]
    simp
  obtain ⟨others, hearly, hothers⟩ | ⟨others, hfront, _⟩ := List.append_eq_append_iff.mp hchars
  · cases others with
    | nil =>
      rw [List.append_nil, String.toList_inj] at hearly
      exact .inl ⟨"", by rw [hearly, String.append_empty]⟩
    | cons d others =>
      obtain ⟨rfl, _⟩ := List.cons.inj hothers
      refine .inr ⟨String.ofList others, ?_⟩
      rw [← String.toList_inj, hearly]
      simp
  · refine .inl ⟨String.ofList others, ?_⟩
    rw [← String.toList_inj, hfront]
    simp

/-- The character reported as unexpected is the first wrong one, and its position the bytes in front
    of it. The part of the line up to there decides, so what follows makes no difference. Any
    beginning of the line that does not go beyond it is at most too short and can be completed; any
    beginning that does is refused with whatever follows. -/
theorem parse_refuses_first_wrong_character
    (h : parse line = .error (.unexpectedCharacter c position)) :
    ∃ front behind : String, line = front ++ String.singleton c ++ behind ∧
      front.utf8ByteSize = position ∧ (c ≠ ' ' ∧ c ≠ ')' ∧ Text.isWordChar c = false) ∧
      (∀ other, parse (front ++ String.singleton c ++ other) =
        .error (.unexpectedCharacter c position)) ∧
      ∀ early later : String, line = early ++ later →
        (early.utf8ByteSize ≤ position ↔
          ∀ d p, parse early ≠ .error (.unexpectedCharacter d p)) ∧
        (early.utf8ByteSize ≤ position ↔ ∃ more f, parse (early ++ more) = .ok f) := by
  obtain ⟨front, behind, t, rfl, rfl, hleads, hfeed⟩ := exists_leads_of_unexpectedCharacter h
  obtain ⟨hword, hends⟩ := not_endsWord_of_feed_eq_refuse hfeed
  obtain ⟨hspace, hclose⟩ := not_or.mp hends
  refine ⟨front, behind, rfl, rfl, ⟨hspace, hclose, Bool.eq_false_iff.mpr hword⟩,
    parse_of_refuse hleads hfeed, fun early later hline => ?_⟩
  obtain ⟨more, rfl⟩ | ⟨more, rfl⟩ := beginning_cases hline
  · have hbytes : early.utf8ByteSize ≤ (early ++ more).utf8ByteSize := by
      rw [String.utf8ByteSize_append]
      omega
    rw [String.toList_append] at hleads
    obtain ⟨u, hearly, _⟩ := hleads.exists_of_append
    exact ⟨iff_of_true hbytes fun d p => parse_ne_unexpectedCharacter hearly,
      iff_of_true hbytes (exists_parse_append_eq_ok hearly)⟩
  · have hbytes : ¬ (front ++ String.singleton c ++ more).utf8ByteSize ≤ front.utf8ByteSize := by
      have hsize := c.utf8Size_pos
      rw [String.utf8ByteSize_append, String.utf8ByteSize_append, String.utf8ByteSize_singleton]
      omega
    refine ⟨iff_of_false hbytes ?_, iff_of_false hbytes ?_⟩
    · intro hnone
      exact hnone c front.utf8ByteSize (parse_of_refuse hleads hfeed more)
    · rintro ⟨others, f, hf⟩
      rw [String.append_assoc, parse_of_refuse hleads hfeed] at hf
      cases hf

/-- A letter outside ASCII takes two bytes, and a parenthesis may not open directly behind a
    word. -/
theorem parse_refuses_first_wrong_character_letter :
    let line := " (if P(é"
    parse line = .error (.unexpectedCharacter '(' 6) ∧
      parse " (if P(" = .error (.unexpectedCharacter '(' 6) ∧
      (∃ more f, parse (" (if P" ++ more) = .ok f) ∧ ¬ (∃ more f, parse (line ++ more) = .ok f) ∧
      parse "(é)" = .error (.unexpectedCharacter 'é' 1) := by
  intro line
  have hline : parse line = .error (.unexpectedCharacter '(' 6) := by decide +kernel
  obtain ⟨front, behind, _, _, _, _, hbeginnings⟩ := parse_refuses_first_wrong_character hline
  obtain ⟨_, hshort⟩ := hbeginnings " (if P" "(é" (by decide)
  obtain ⟨_, hwhole⟩ := hbeginnings line "" (by decide)
  have hlong : ¬ line.utf8ByteSize ≤ 6 := by decide
  exact ⟨hline, by decide +kernel, hshort.mp (by decide), fun hmore => hlong (hwhole.mpr hmore),
    by decide +kernel⟩

end Propositional.Formula
