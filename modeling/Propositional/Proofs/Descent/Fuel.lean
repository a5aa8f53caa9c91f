import Propositional.Proofs.Descent.Consumption

namespace Propositional.Formula

open Reader Descent

variable {line : List Char} {c : Cursor} {fuel : Nat}

/-- A name that is read in place of an expression. -/
theorem exists_readSymbol_eq {x : Char} {rest : List Char} (hc : c.Sound line)
    (hfirst : c.remaining = x :: rest) (hspace : x ≠ ' ') (hopen : x ≠ '(') :
    ∃ o, ((readWord >>= fun word => pure (.symbol (String.ofList word))) c.filled).map
      (·.behind [c] []) = some o ∧ ReadsExpression line c o := by
  obtain ⟨o, ho, hword⟩ := exists_readWord_eq hc.filled
  rw [c.remaining_filled] at hword
  rw [bind_pure_of_eq ho]
  exact ⟨_, rfl, .symbol hfirst hspace hopen hword⟩

/-- One turn for an expression, where the fuel is enough for what remains behind it. -/
theorem exists_readExpression_succ_eq (hc : c.Sound line)
    (hexpression : ∀ d : Cursor, d.Sound line → d.left < c.left →
      ∃ o, readExpression fuel d = some o ∧ ReadsExpression line d o)
    (hoperands : ∀ d : Cursor, d.Sound line → d.left < c.left →
      ∃ o, readOperands fuel [] d = some o ∧ ReadsOperands line [] d o) :
    ∃ o, readExpression (fuel + 1) c = some o ∧ ReadsExpression line c o := by
  rw [readExpression, current_bind, peek_bind hc]
  cases hlex : lex c.remaining with
  | none => exact ⟨_, rfl, .missing (lex_eq_none_iff.mp hlex)⟩
  | some lexed =>
    obtain ⟨token, rest⟩ := lexed
    have hlexed := lexed_of_lex hlex
    have hrest := hc.movedTo hlexed.suffix
    have hlt := Cursor.left_movedTo_lt hlexed
    obtain ⟨x, behind, hfirst, hx⟩ := hlexed.exists_eq_cons
    cases token with
    | spaces =>
      obtain ⟨o, ho, hreads⟩ := hexpression _ hrest hlt
      exact ⟨_, bump_turned_eq hc hlex ho, .space hlexed hreads⟩
    | opening =>
      obtain ⟨w, hw, hword⟩ := exists_readWord_eq hrest
      have hname := hword.left_le
      simp only [Option.map_some]
      rw [bind_of_ok (bump_filled hc hlex)]
      cases hword with
      | refuses htext hchars hother hnot hends hcalls hd =>
        refine ⟨_, ?_, .unnamed hlexed (.refuses htext hchars hother hnot hends hcalls hd)⟩
        rw [bind_of_error hw]
        rfl
      | ends htext hchars hends hcalls hd =>
        obtain ⟨o, ho, hreads⟩ := hoperands _ hd (Nat.lt_of_le_of_lt hname hlt)
        refine ⟨_, ?_, .apply hlexed (.ends htext hchars hends hcalls hd) hreads⟩
        rw [bind_of_ok hw, bind_pure_of_eq ho]
        rfl
    | closing =>
      obtain rfl := hx
      exact exists_readSymbol_eq hc hfirst (by decide) (by decide)
    | word text =>
      have hspace : x ≠ ' ' := by rintro rfl; cases hx
      have hopen : x ≠ '(' := by rintro rfl; cases hx
      exact exists_readSymbol_eq hc hfirst hspace hopen
    | unexpected y =>
      obtain ⟨_, _, hends, hopen⟩ := hx
      exact exists_readSymbol_eq hc hfirst (fun hspace => hends (.inl hspace)) hopen

/-- An operand and those behind it. An expression may begin where the turn does, so it is read with
    the same fuel for all that remains. -/
theorem exists_readOperand_eq {operands : List Formula} {x : Char} {rest : List Char}
    (hc : c.Sound line) (hfirst : c.remaining = x :: rest) (hends : ¬ EndsWord x)
    (hexpression : ∃ o, readExpression fuel c.filled = some o ∧ ReadsExpression line c.filled o)
    (hoperands : ∀ (others : List Formula) (d : Cursor), d.Sound line → d.left < c.left →
      ∃ o, readOperands fuel others d = some o ∧ ReadsOperands line others d o) :
    ∃ o, ((readExpression fuel >>= fun f => turned c (some f) >>= fun _ =>
        readOperands fuel (operands ++ [f])) c.filled).map (·.behind [c] []) = some o ∧
      ReadsOperands line operands c o := by
  obtain ⟨first, ho, hreads⟩ := hexpression
  have hd := ((walks_readers fuel).1 _ first ho).sound_last hc.filled
  obtain ⟨calls, turns, d, result⟩ := first
  cases result with
  | error e =>
    rw [bind_of_error ho]
    exact ⟨_, rfl, .refused hfirst hends hreads⟩
  | ok f =>
    have hsize : f.size + d.left ≤ c.left := hreads.size_add_left_le_of_operand rfl hfirst hends
    have hlt := (Nat.lt_add_of_pos_left f.size_pos).trans_le hsize
    obtain ⟨o, hothers, hlater⟩ := hoperands (operands ++ [f]) d hd hlt
    refine ⟨_, ?_, .operand hfirst hends hreads hd hlater⟩
    rw [bind_of_ok ho, bind_of_ok (x := turned c (some f)) rfl, hothers]
    simp [Outcome.behind]

/-- One turn for the operands. -/
theorem exists_readOperands_succ_eq {operands : List Formula} (hc : c.Sound line)
    (hexpression : ∃ o, readExpression fuel c.filled = some o ∧ ReadsExpression line c.filled o)
    (hoperands : ∀ (others : List Formula) (d : Cursor), d.Sound line → d.left < c.left →
      ∃ o, readOperands fuel others d = some o ∧ ReadsOperands line others d o) :
    ∃ o, readOperands (fuel + 1) operands c = some o ∧ ReadsOperands line operands c o := by
  rw [readOperands, current_bind, peek_bind hc]
  cases hlex : lex c.remaining with
  | none => exact ⟨_, rfl, .missing (lex_eq_none_iff.mp hlex)⟩
  | some lexed =>
    obtain ⟨token, rest⟩ := lexed
    have hlexed := lexed_of_lex hlex
    obtain ⟨x, behind, hfirst, hx⟩ := hlexed.exists_eq_cons
    cases token with
    | spaces =>
      obtain ⟨o, ho, hreads⟩ :=
        hoperands operands _ (hc.movedTo hlexed.suffix) (Cursor.left_movedTo_lt hlexed)
      exact ⟨_, bump_turned_eq hc hlex ho, .space hlexed hreads⟩
    | closing =>
      refine ⟨_, ?_, .close hlexed⟩
      simp only [Option.map_some]
      rw [bind_of_ok (bump_filled hc hlex)]
      rfl
    | opening =>
      obtain rfl := hx
      exact exists_readOperand_eq hc hfirst (by simp [EndsWord]) hexpression hoperands
    | word text =>
      have hends : ¬ EndsWord x := by
        intro hends
        rw [Token.BeginsWith, hends.isWordChar_eq_false] at hx
        cases hx
      exact exists_readOperand_eq hc hfirst hends hexpression hoperands
    | unexpected y => exact exists_readOperand_eq hc hfirst hx.2.2.1 hexpression hoperands

/-- Twice the bytes that remain and one is enough fuel. A turn that takes something off the line
    leaves two units more than it needs, of which reading an operand takes one. -/
theorem exists_readers_eq (line : List Char) (fuel : Nat) :
    (∀ c : Cursor, c.Sound line → 2 * c.left + 1 ≤ fuel →
      ∃ o, readExpression fuel c = some o ∧ ReadsExpression line c o) ∧
    ∀ (operands : List Formula) (c : Cursor), c.Sound line → 2 * c.left + 2 ≤ fuel →
      ∃ o, readOperands fuel operands c = some o ∧ ReadsOperands line operands c o := by
  induction fuel with
  | zero =>
    exact ⟨fun c _ hfuel => absurd hfuel (Nat.not_succ_le_zero _),
      fun _ c _ hfuel => absurd hfuel (Nat.not_succ_le_zero _)⟩
  | succ fuel ih =>
    obtain ⟨hexpression, hoperands⟩ := ih
    constructor
    · intro c hc hfuel
      exact exists_readExpression_succ_eq hc
        (fun d hd hlt => hexpression d hd (by omega))
        (fun d hd hlt => hoperands [] d hd (by omega))
    · intro operands c hc hfuel
      have hleft := c.left_filled
      exact exists_readOperands_succ_eq hc (hexpression c.filled hc.filled (by omega))
        (fun others d hd hlt => hoperands others d hd (by omega))

end Propositional.Formula
