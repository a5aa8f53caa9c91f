import Propositional.Proofs.Formula.Steps

namespace Propositional.Formula

namespace Reader

variable {s t u : State} {c : Char} {cs : List Char}

theorem depth_pos_of_feed_eq_next (h : feed s c = .next t) (hopen : 0 < s.depth) : 0 < t.depth := by
  have heffect := effect_feed s c
  rw [h] at heffect
  cases heffect with
  | word _ hdepth => omega
  | space _ hdepth => exact hopen.trans_eq hdepth.symm
  | opens _ _ => exact Nat.succ_pos _
  | closes _ _ hrest => exact hrest

/-- The outermost application stays open as long as reading goes on. -/
theorem Leads.depth_pos (h : Leads s cs t) (hopen : 0 < s.depth) : 0 < t.depth := by
  induction h with
  | nil s => exact hopen
  | cons hfeed _ ih => exact ih (depth_pos_of_feed_eq_next hfeed hopen)

/-- Only spaces leave nothing begun. -/
theorem Leads.eq_space (h : Leads ⟨[], .gap⟩ cs ⟨[], .gap⟩) : ∀ c ∈ cs, c = ' ' := by
  induction cs with
  | nil => nofun
  | cons c cs ih =>
    cases h with
    | cons hfeed hlater =>
      obtain ⟨rfl, hnext⟩ | ⟨_, hnext⟩ | ⟨_, hnext⟩ | ⟨_, hnext⟩ | hnext := feed_gap_cases [] c
      · obtain rfl := Step.next.inj (hnext.symm.trans hfeed)
        exact List.forall_mem_cons.mpr ⟨rfl, ih hlater⟩
      · obtain rfl := Step.next.inj (hnext.symm.trans hfeed)
        exact absurd (hlater.depth_pos Nat.one_pos) (Nat.lt_irrefl 0)
      · cases hnext.symm.trans hfeed
      · obtain rfl := Step.next.inj (hnext.symm.trans hfeed)
        obtain ⟨word, hword⟩ := hlater.eq_symbol
        cases hword
      · cases hnext.symm.trans hfeed

/-- Fewer closing parentheses than are open leave one open. -/
theorem exists_leads_replicate_close {count : Nat} (hcount : count < t.depth) :
    ∃ u, Leads t (List.replicate count ')') u ∧ 0 < u.depth := by
  induction count generalizing t with
  | zero => exact ⟨t, .nil t, hcount⟩
  | succ count ih =>
    obtain ⟨hone, _⟩ | ⟨next, hfeed, _, hdepth⟩ := feed_close_cases (Nat.zero_lt_of_lt hcount)
    · omega
    · obtain ⟨u, hleads, hopen⟩ := ih (t := next) (by omega)
      exact ⟨u, .cons hfeed hleads, hopen⟩

/-- As many closing parentheses as are open complete a formula, the same one whatever follows. -/
theorem exists_run_replicate_close (hopen : 0 < t.depth) :
    ∃ f, ∀ position rest, run t position (List.replicate t.depth ')' ++ rest) = .ok (f, rest) := by
  generalize hdepth : t.depth = depth
  induction depth generalizing t with
  | zero => omega
  | succ depth ih =>
    obtain ⟨hone, f, hfeed⟩ | ⟨next, hfeed, hrest, hnext⟩ := feed_close_cases hopen
    · obtain rfl : depth = 0 := by omega
      exact ⟨f, fun position rest => run_cons_of_endsWith hfeed⟩
    · obtain ⟨f, hf⟩ := ih hrest (by omega)
      refine ⟨f, fun position rest => ?_⟩
      rw [List.replicate_succ, List.cons_append, run_cons_of_next hfeed]
      exact hf _ rest

/-- Every state that reading has come to can be completed to a formula. -/
theorem exists_run_eq_ok (t : State) :
    ∃ more, ∀ position, ∃ out, run t position more = .ok out := by
  obtain rfl | ⟨word, rfl⟩ | hopen := t.cases_of_depth
  · exact ⟨[')'], fun _ => ⟨_, rfl⟩⟩
  · exact ⟨[], fun _ => ⟨_, rfl⟩⟩
  · obtain ⟨f, hf⟩ := exists_run_replicate_close hopen
    exact ⟨List.replicate t.depth ')' ++ [], fun position => ⟨_, hf position []⟩⟩

end Reader

open Reader

variable {line : String} {f : Formula}

theorem parse_eq_error_emptyInput_iff :
    parse line = .error .emptyInput ↔ ∀ c ∈ line.toList, c = ' ' := by
  rw [parse_eq_error_iff]
  constructor
  · intro h
    have hends := ends_run start 0 line.toList
    rw [h] at hends
    cases hends with
    | empty hleads => exact hleads.eq_space
  · intro h
    have hrun := @run_gap_replicate [] line.toList.length 0 []
    rw [List.append_nil, ← List.eq_replicate_of_mem h] at hrun
    exact hrun

/-- A line ends too early just where it leads to a state with an open parenthesis. -/
theorem parse_eq_error_unexpectedEnd_iff {position : Nat} :
    parse line = .error (.unexpectedEnd position) ↔
      position = line.utf8ByteSize ∧ ∃ t, Leads start line.toList t ∧ 0 < t.depth := by
  rw [parse_eq_error_iff]
  constructor
  · intro h
    have hends := ends_run start 0 line.toList
    rw [h] at hends
    generalize hcs : line.toList = cs at hends
    cases hends with
    | unfinished hleads hopen =>
      exact ⟨by rw [← hcs, byteCount_toList, Nat.zero_add], _, hleads, hopen⟩
  · rintro ⟨rfl, t, hleads, hopen⟩
    rw [hleads.run_eq, run_of_depth_pos hopen, byteCount_toList, Nat.zero_add]

/-- A text of closing parentheses only. -/
def closing (count : Nat) : String :=
  String.ofList (List.replicate count ')')

variable {t : State}

theorem run_closing (hleads : Leads start line.toList t) (count : Nat) :
    run start 0 (line ++ closing count).toList =
      run t line.utf8ByteSize (List.replicate count ')') := by
  rw [String.toList_append, closing, String.toList_ofList, hleads.run_append, byteCount_toList,
    Nat.zero_add]

theorem parse_append_closing_of_lt (hleads : Leads start line.toList t) {count : Nat}
    (hcount : count < t.depth) :
    parse (line ++ closing count) = .error (.unexpectedEnd (line.utf8ByteSize + count)) := by
  obtain ⟨u, hclosing, hopen⟩ := exists_leads_replicate_close hcount
  rw [parse_eq_error_iff, run_closing hleads, hclosing.run_eq, run_of_depth_pos hopen,
    byteCount_replicate rfl]

/-- Closing parentheses beyond those that are missing are left over. -/
theorem exists_read_append_closing (hleads : Leads start line.toList t) (hopen : 0 < t.depth) :
    ∃ f, ∀ count, t.depth ≤ count →
      read (line ++ closing count) = .ok ⟨f, List.replicate (count - t.depth) ')'⟩ := by
  obtain ⟨f, hf⟩ := exists_run_replicate_close hopen
  refine ⟨f, fun count hcount => ?_⟩
  have hsplit : List.replicate count ')' =
      List.replicate t.depth ')' ++ List.replicate (count - t.depth) ')' := by
    rw [List.replicate_append_replicate, Nat.add_sub_cancel' hcount]
  rw [read_eq_ok_iff, run_closing hleads, hsplit]
  exact hf _ _

/-- An application that was read ends with the parenthesis that closes it. -/
theorem exists_leads_of_read_apply {r : Reading} {c : Connective} {operands : List Formula}
    (h : read line = .ok r) (hformula : r.formula = .apply c operands) :
    ∃ front t, line.toList = front ++ ')' :: r.rest ∧ Leads start front t ∧
      feed t ')' = .endsWith r.formula := by
  have hends := ends_run start 0 line.toList
  rw [read_eq_ok_iff.mp h, hformula] at hends
  rw [hformula]
  generalize r.rest = rest at hends
  cases hends with
  | @endsWith t front behind c f hcs hleads hfeed =>
    obtain ⟨rfl, _⟩ := depth_eq_one_of_feed_eq_endsWith hfeed
    exact ⟨front, t, hcs, hleads, hfeed⟩
  | endsBefore _ _ hfeed =>
    obtain ⟨name, hname⟩ := eq_symbol_of_feed_eq_endsBefore hfeed
    cases hname

/-- On the way to the parenthesis that closes a formula nothing is complete. -/
theorem parse_eq_error_of_leads {u : State} {early : String} {later : List Char} {c : Char}
    (hearly : Leads start early.toList t) (hlater : Leads t later u)
    (hfeed : feed u c = .endsWith f) :
    parse early = .error .emptyInput ∨
      parse early = .error (.unexpectedEnd early.utf8ByteSize) := by
  obtain rfl | ⟨word, rfl⟩ | hopen := t.cases_of_depth
  · left
    rw [parse_eq_error_iff, hearly.run_eq]
    rfl
  · obtain ⟨other, rfl⟩ := hlater.eq_symbol
    obtain ⟨_, hdepth⟩ := depth_eq_one_of_feed_eq_endsWith hfeed
    cases hdepth
  · exact .inr (parse_eq_error_unexpectedEnd_iff.mpr ⟨rfl, t, hearly, hopen⟩)

/-- The text of an application is read by itself, and of its beginnings only those that end too
    early come before it. -/
theorem exists_text_of_read_apply {r : Reading} {c : Connective} {operands : List Formula}
    (h : read line = .ok r) (hformula : r.formula = .apply c operands) :
    ∃ text : String, line = text ++ String.ofList r.rest ∧ parse text = .ok r.formula ∧
      ∀ early later : String, text = early ++ later → later ≠ "" →
        parse early = .error .emptyInput ∨
          parse early = .error (.unexpectedEnd early.utf8ByteSize) := by
  obtain ⟨front, t, hline, hleads, hfeed⟩ := exists_leads_of_read_apply h hformula
  refine ⟨String.ofList (front ++ [')']), ?_, ?_, ?_⟩
  · rw [← String.ofList_append, List.append_assoc, List.singleton_append, ← hline,
      String.ofList_toList]
  · apply parse_eq_ok_of_run
    rw [String.toList_ofList, hleads.run_append]
    exact run_cons_of_endsWith hfeed
  · intro early later htext hlater
    have hchars : front ++ [')'] = early.toList ++ later.toList := by
      rw [← String.toList_append, ← htext, String.toList_ofList]
    -- A beginning that is not the whole text at least lacks the last parenthesis.
    have hprefix : early.toList <+: front ++ [')'] := ⟨later.toList, hchars.symm⟩
    obtain hwhole | ⟨more, rfl⟩ := List.prefix_concat_iff.mp hprefix
    · rw [hwhole, List.self_eq_append_right, String.toList_eq_nil_iff] at hchars
      exact absurd hchars hlater
    · obtain ⟨u, hearly, hmore⟩ := hleads.exists_of_append
      exact parse_eq_error_of_leads hearly hmore hfeed

/-- The ways in which a line can be too short. A line of spaces only is empty. A line that ends too
    early ends inside as many applications as it has more opening than closing parentheses, and just
    so many closing ones complete it, to the same formula whatever number of them follows. And no
    beginning of an application is taken for a formula. -/
theorem too_short_lines_recognised (line : String) :
    (parse line = .error .emptyInput ↔ ∀ c ∈ line.toList, c = ' ') ∧
    (∀ position, parse line = .error (.unexpectedEnd position) →
      position = line.utf8ByteSize ∧
      ∃ d f, 0 < d ∧ line.toList.count '(' = line.toList.count ')' + d ∧
        (∀ j, j < d → parse (line ++ closing j) = .error (.unexpectedEnd (position + j))) ∧
        (∀ j, d ≤ j → parse (line ++ closing j) = .ok f) ∧
        ∃ r, read (line ++ closing d) = .ok r ∧ r.formula = f ∧ r.trailing? = none) ∧
    ∀ r c operands, read line = .ok r → r.formula = .apply c operands →
      ∃ text : String, line = text ++ String.ofList r.rest ∧ parse text = .ok r.formula ∧
        ∀ early later : String, text = early ++ later → later ≠ "" →
          parse early = .error .emptyInput ∨
            parse early = .error (.unexpectedEnd early.utf8ByteSize) := by
  refine ⟨parse_eq_error_emptyInput_iff, ?_, fun r c operands => exists_text_of_read_apply⟩
  intro position h
  obtain ⟨rfl, t, hleads, hopen⟩ := parse_eq_error_unexpectedEnd_iff.mp h
  obtain ⟨f, hf⟩ := exists_read_append_closing hleads hopen
  have hcount : line.toList.count '(' = line.toList.count ')' + t.depth := by
    have hdepth := hleads.depth_eq
    have hstart : start.depth = 0 := rfl
    omega
  refine ⟨rfl, t.depth, f, hopen, hcount, fun j => parse_append_closing_of_lt hleads, ?_, ?_⟩
  · intro j hj
    rw [parse, hf j hj]
    rfl
  · refine ⟨_, hf t.depth (Nat.le_refl _), rfl, ?_⟩
    rw [Nat.sub_self]
    rfl

/-- Inside two applications, the inner one without a word. -/
theorem too_short_lines_recognised_nested :
    let line := "  (And P ("
    let other := " (or P)Q"
    let f := apply .conj [symbol "P", apply (.unknown "") []]
    parse line = .error (.unexpectedEnd 10) ∧
      parse (line ++ closing 1) = .error (.unexpectedEnd 11) ∧
      parse (line ++ closing 2) = .ok f ∧ parse (line ++ closing 7) = .ok f ∧
      read other = .ok ⟨apply .disj [symbol "P"], ['Q']⟩ ∧
      (parse " (o" = .error .emptyInput ∨ parse " (o" = .error (.unexpectedEnd 3)) ∧
      parse "   " = .error .emptyInput := by
  intro line other f
  have hline : parse line = .error (.unexpectedEnd 10) := by decide +kernel
  have hother : read other = .ok ⟨apply .disj [symbol "P"], ['Q']⟩ :=
    read_eq_ok_iff.mpr (by decide +kernel)
  obtain ⟨_, hends, _⟩ := too_short_lines_recognised line
  obtain ⟨_, d, g, _, hcount, hless, hmore, _⟩ := hends 10 hline
  obtain rfl : d = 2 := by
    have hopened : line.toList.count '(' = 2 := by decide +kernel
    have hclosed : line.toList.count ')' = 0 := by decide +kernel
    omega
  have hcompleted : parse (line ++ closing 2) = .ok f := by decide +kernel
  obtain rfl : f = g := Except.ok.inj (hcompleted.symm.trans (hmore 2 (Nat.le_refl 2)))
  obtain ⟨_, _, hbeginning⟩ := too_short_lines_recognised other
  obtain ⟨text, htext, _, hearly⟩ := hbeginning _ _ _ hother rfl
  obtain rfl : text = " (or P)" := by
    have hsplit : " (or P)" ++ String.ofList ['Q'] = other := by decide
    exact ((String.append_left_inj _).mp (hsplit.trans htext)).symm
  exact ⟨hline, hless 1 (by decide), hcompleted, hmore 7 (by decide), hother,
    hearly " (o" "r P)" rfl (by decide),
    (too_short_lines_recognised "   ").1.mpr (by simp)⟩

end Propositional.Formula
