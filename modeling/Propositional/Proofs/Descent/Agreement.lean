import Propositional.Proofs.Descent.Turns

namespace Propositional.Formula

open Reader

/-- What an outcome comes to where a result is read on from by the stack machine. -/
def Outcome.settle {α : Type} (o : Outcome α)
    (next : α → Nat → List Char → Except ParseError (Formula × List Char)) :
    Except ParseError (Formula × List Char) :=
  match o.result with
  | .ok a => next a o.cursor.position o.cursor.remaining
  | .error e => .error e

section Machine

variable {line rest read cs : List Char} {c d : Cursor} {frames : List Frame} {position : Nat}

theorem Outcome.settle_map {α β : Type} (f : α → β) (o : Outcome α)
    (next : β → Nat → List Char → Except ParseError (Formula × List Char)) :
    (o.map f).settle next = o.settle fun a => next (f a) := by
  obtain ⟨calls, turns, cursor, result⟩ := o
  cases result <;> rfl

/-- Behind the word of a connective the machine reads operands, also where nothing remains. -/
theorem run_connective_eq_run_gap (hends : ∀ x ∈ cs.head?, EndsWord x) :
    run ⟨frames, .connective read⟩ position cs =
      run ⟨.ofWord read.reverse :: frames, .gap⟩ position cs := by
  cases cs with
  | nil =>
    have hword : 0 < State.depth ⟨frames, .connective read⟩ := Nat.succ_pos _
    have hgap : 0 < State.depth ⟨.ofWord read.reverse :: frames, .gap⟩ := Nat.succ_pos _
    rw [run_of_depth_pos hword, run_of_depth_pos hgap]
  | cons x cs => exact run_connective_eq_gap ⟨x, rfl, hends x rfl⟩

theorem run_gap_spaces (hc : c.Sound line) (hspace : Lexed c.remaining .spaces rest) :
    run ⟨frames, .gap⟩ c.position c.remaining =
      run ⟨frames, .gap⟩ (c.movedTo rest).position rest := by
  obtain ⟨more, htext⟩ := hspace.of_spaces
  have hposition := hc.position_eq (hc.movedTo hspace.suffix) htext
  rw [byteCount_replicate rfl] at hposition
  rw [htext, run_gap_replicate, hposition]

theorem run_gap_open (hc : c.Sound line) (hopen : Lexed c.remaining .opening rest) :
    run ⟨frames, .gap⟩ c.position c.remaining =
      run ⟨frames, .connective []⟩ (c.movedTo rest).position rest := by
  have htext : c.remaining = ['('] ++ (c.movedTo rest).remaining := hopen.eq_of_opening
  have hposition := hc.position_eq (hc.movedTo hopen.suffix) htext
  rw [hopen.eq_of_opening, hposition]
  exact run_cons_of_next rfl

/-- The machine takes up a word of a connective as it is read, and refuses what the reader does. -/
theorem ReadsWord.run_connective_eq {o : Outcome (List Char)} (h : ReadsWord line c.remaining o)
    (hc : c.Sound line) :
    run ⟨frames, .connective []⟩ c.position c.remaining =
      o.settle fun word => run ⟨.ofWord word :: frames, .gap⟩ := by
  cases h with
  | ends htext hword hrest _ hd =>
    rw [Outcome.settle, hc.position_eq hd htext, htext, run_connective_append hword,
      List.append_nil, run_connective_eq_run_gap hrest, List.reverse_reverse]
  | refuses htext hword hrest hother hends _ hd =>
    rw [Outcome.settle, hc.position_eq hd htext, htext, run_connective_append hword, hrest,
      run_cons_of_refuse (feed_connective_of_not_endsWord hother hends)]

/-- The same for a word between items. It may have no characters outside all parentheses only. -/
theorem ReadsWord.run_gap_eq {o : Outcome (List Char)} {x : Char}
    (h : ReadsWord line c.remaining o) (hc : c.Sound line) (hfirst : c.remaining = x :: rest)
    (hspace : x ≠ ' ') (hopen : x ≠ '(') (hguard : frames = [] ∨ x ≠ ')') :
    run ⟨frames, .gap⟩ c.position c.remaining =
      o.settle fun word => resume frames (.symbol (String.ofList word)) := by
  cases h with
  | @ends word _ _ htext hword hrest _ hd =>
    cases word with
    | nil =>
      have hsame := htext.symm.trans hfirst
      rw [List.nil_append] at hsame
      rw [hsame] at hrest
      obtain rfl : x = ')' := (hrest x rfl).resolve_left hspace
      obtain rfl : frames = [] := hguard.resolve_right (fun hne => hne rfl)
      rw [Outcome.settle, hsame, hfirst]
      exact run_cons_of_endsBefore rfl
    | cons y word =>
      rw [Outcome.settle, hc.position_eq hd htext, htext,
        run_gap_append (List.cons_ne_nil y word) hword, run_symbol_eq_resume hrest,
        List.reverse_reverse]
  | @refuses word _ y _ d htext hword hrest hother hends _ hd =>
    cases word with
    | nil =>
      obtain ⟨rfl, _⟩ := List.cons.inj (hrest.symm.trans (htext.symm.trans hfirst))
      have hfeed : feed ⟨frames, .gap⟩ y = .refuse :=
        feedGap_eq_refuse hspace hopen (fun hx => hends (.inr hx)) (Bool.eq_false_iff.mp hother)
      rw [Outcome.settle, hc.position_eq hd htext, htext, List.nil_append, hrest,
        run_cons_of_refuse hfeed]
      rfl
    | cons y word =>
      rw [Outcome.settle, hc.position_eq hd htext, htext,
        run_gap_append (List.cons_ne_nil y word) hword, hrest,
        run_cons_of_refuse (feed_symbol_of_not_endsWord hother hends)]

theorem Cursor.exists_head_filled {x : Char} (hfirst : c.remaining = x :: rest)
    (hends : ¬ EndsWord x) : ∃ y ∈ c.filled.remaining.head?, ¬ EndsWord y := by
  rw [c.remaining_filled, hfirst]
  exact ⟨x, rfl, hends⟩

-- Where a parenthesis is open an expression is read only in front of a character that may begin
-- one, so it never is the symbol without characters there, which the machine would not find either.
mutual

/-- The machine finds the expression that is read, and goes on behind it. -/
theorem ReadsExpression.run_eq {line : List Char} {c : Cursor} {o : Outcome Formula} :
    ReadsExpression line c o → c.Sound line → ∀ frames : List Frame,
      (frames = [] ∨ ∃ x ∈ c.remaining.head?, ¬ EndsWord x) →
        run ⟨frames, .gap⟩ c.position c.remaining = o.settle (resume frames)
  | .missing hend, _, frames, hguard => by
    rw [hend] at hguard ⊢
    obtain rfl : frames = [] := hguard.resolve_right (by simp)
    rfl
  | .space hspace h, hc, frames, hguard => by
    obtain ⟨x, behind, hfirst, hx⟩ := hspace.exists_eq_cons
    obtain rfl : x = ' ' := hx
    have htop : frames = [] := by
      refine hguard.resolve_right ?_
      rintro ⟨y, hy, hends⟩
      rw [hfirst] at hy
      obtain rfl := Option.some.inj hy
      exact hends (.inl rfl)
    rw [run_gap_spaces hc hspace]
    exact h.run_eq (hc.movedTo hspace.suffix) frames (.inl htop)
  | .unnamed hopen hword, hc, frames, _ => by
    rw [run_gap_open hc hopen]
    exact hword.run_connective_eq (hc.movedTo hopen.suffix)
  | @ReadsExpression.apply _ c _ rest word _ _ hopen hword h, hc, frames, _ => by
    have hoperands := h.run_eq hword.sound (.ofWord (String.ofList word)) frames
    rw [run_gap_open hc hopen]
    refine (hword.run_connective_eq (c := c.movedTo rest) (hc.movedTo hopen.suffix)).trans ?_
    refine hoperands.trans ?_
    rw [← Outcome.settle_map]
    rfl
  | .symbol (x := x) hfirst hspace hopen hword, hc, frames, hguard => by
    have hclose : frames = [] ∨ x ≠ ')' := by
      refine hguard.imp_right ?_
      rintro ⟨y, hy, hends⟩ rfl
      rw [hfirst] at hy
      obtain rfl := Option.some.inj hy
      exact hends (.inr rfl)
    rw [hword.run_gap_eq hc hfirst hspace hopen hclose, ← Outcome.settle_map]
    rfl

theorem ReadsOperands.run_eq {line : List Char} {c : Cursor} {o : Outcome (List Formula)}
    {operands : List Formula} :
    ReadsOperands line operands c o → c.Sound line → ∀ (connective : Connective)
      (frames : List Frame),
        run ⟨⟨connective, operands.reverse⟩ :: frames, .gap⟩ c.position c.remaining =
          o.settle fun fs => resume frames (.apply connective fs)
  | .missing (c := c) hend, _, connective, frames => by
    have hopen : 0 < State.depth ⟨⟨connective, operands.reverse⟩ :: frames, .gap⟩ := Nat.succ_pos _
    rw [hend, run_of_depth_pos hopen, Outcome.settle, c.position_filled]
  | .space hspace h, hc, connective, frames => by
    rw [run_gap_spaces hc hspace]
    exact h.run_eq (hc.movedTo hspace.suffix) connective frames
  | @ReadsOperands.close _ _ c rest hclose, hc, connective, frames => by
    have htext : c.remaining = [')'] ++ (c.movedTo rest).remaining := hclose.eq_of_closing
    have hposition := hc.position_eq (hc.movedTo hclose.suffix) htext
    rw [hclose.eq_of_closing, run_close_eq_resume, Frame.close, List.reverse_reverse,
      Outcome.settle, hposition]
    rfl
  | .refused (c := c) hfirst hends h, hc, connective, frames => by
    have hrun := h.run_eq hc.filled (⟨connective, operands.reverse⟩ :: frames)
      (.inr (Cursor.exists_head_filled hfirst hends))
    rw [c.position_filled, c.remaining_filled] at hrun
    exact hrun
  | .operand (c := c) (f := f) hfirst hends h hd hlater, hc, connective, frames => by
    have hrun := h.run_eq hc.filled (⟨connective, operands.reverse⟩ :: frames)
      (.inr (Cursor.exists_head_filled hfirst hends))
    have hrest := hlater.run_eq hd connective frames
    rw [c.position_filled, c.remaining_filled] at hrun
    rw [List.reverse_concat] at hrest
    exact hrun.trans hrest

end

end Machine

end Propositional.Formula
