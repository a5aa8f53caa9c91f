import Propositional.Proofs.Descent.Agreement
import Propositional.Proofs.Descent.Fuel

namespace Propositional.Formula

open Reader Descent

variable {line : String} {o : Outcome Formula}

/-- The outcome for a whole line is what the stack machine reads. -/
theorem read_eq_of_reads (h : ReadsExpression line.toList (Cursor.ofLine line.toList) o) :
    read line = o.result.map fun f => ⟨f, o.cursor.remaining⟩ := by
  have hrun := h.run_eq (Cursor.sound_ofLine line.toList) [] (.inl rfl)
  have hposition : (Cursor.ofLine line.toList).position = 0 := Nat.sub_self _
  rw [hposition] at hrun
  rw [read]
  refine (congrArg (Except.map _) hrun).trans ?_
  obtain ⟨calls, turns, cursor, result⟩ := o
  cases result <;> rfl

/-- A formula has at most as many symbols and connectives as bytes were consumed for it, except for
    the symbol without characters. -/
theorem size_le_of_reads {f : Formula}
    (h : ReadsExpression line.toList (Cursor.ofLine line.toList) o)
    (ho : o.cursor.Sound line.toList) (hok : o.result = .ok f) : f.size ≤ max 1 o.cursor.position := by
  by_cases hclose : line.toList.head? = some ')'
  · obtain ⟨rest, hrest⟩ := List.head?_eq_some_iff.mp hclose
    obtain ⟨hresult, _, _⟩ := h.of_close hrest
    obtain rfl := Except.ok.inj (hresult.symm.trans hok)
    exact Nat.le_max_left 1 _
  · have hsize : f.size + o.cursor.left ≤ byteCount line.toList := h.size_add_left_le hok hclose
    have hposition := ho.position_add_left
    omega

theorem exists_front_of_sound {c : Cursor} (hc : c.Sound line.toList) :
    ∃ front : String, line = front ++ String.ofList c.remaining ∧
      front.utf8ByteSize = c.position := by
  obtain ⟨front, hline, hbytes⟩ := hc.exists_front
  refine ⟨String.ofList front, ?_, ?_⟩
  · rw [← String.ofList_append, ← hline, String.ofList_toList]
  · rw [← byteCount_toList, String.toList_ofList, hbytes]

/-- Reading a line token by token comes to an end on every line, with the outcome that the stack
    machine has. Twice the bytes of the line and one is enough fuel, and more changes nothing. At
    each call the cursor is sound: it stands between two characters, at its position, and keeps no
    token but the one that follows. It never goes back, and every turn of a loop takes it on, also
    where an operand is read, although the expression in front of a closing parenthesis outside all
    others takes up nothing. -/
theorem reading_progresses (line : String) :
    ∃ o : Outcome Formula,
      (∀ fuel, 2 * line.utf8ByteSize + 1 ≤ fuel →
        readExpression fuel (Cursor.ofLine line.toList) = some o) ∧
      read line = (o.result.map fun f => ⟨f, o.cursor.remaining⟩) ∧
      (∀ c ∈ o.calls ++ [o.cursor], c.Sound line.toList ∧
        c.position + c.left = line.utf8ByteSize ∧
        (∃ front : String, line = front ++ String.ofList c.remaining ∧
          front.utf8ByteSize = c.position) ∧
        ∀ x rest, c.remaining = x :: rest → sliceFrom c.remaining x.utf8Size = some rest) ∧
      ((o.calls ++ [o.cursor]).Pairwise fun c d => d.remaining <:+ c.remaining) ∧
      (∀ t ∈ o.turns, t.Advances o.calls) ∧
      o.calls.length ≤ 7 * line.utf8ByteSize + 1 ∧
      (∀ f, o.result = .ok f → f.size ≤ max 1 o.cursor.position) ∧
      ∀ rest, line.toList = ')' :: rest →
        o.result = .ok (.symbol "") ∧ o.cursor.remaining = line.toList := by
  have hstart := Cursor.sound_ofLine line.toList
  have hleft : (Cursor.ofLine line.toList).left = line.utf8ByteSize := byteCount_toList line
  obtain ⟨o, ho, hreads⟩ :=
    (exists_readers_eq line.toList (2 * line.utf8ByteSize + 1)).1 _ hstart (by omega)
  have hwalk := (walks_readers _).1 _ o ho
  obtain ⟨hsound, hpairs⟩ := hwalk.sound hstart
  have hcalls := hreads.length_calls_le.1
  refine ⟨o, fun fuel hfuel => (within_of_le hfuel).1 _ o ho, read_eq_of_reads hreads,
    fun c hc => ?_, hpairs, hreads.advances, hleft ▸ hcalls,
    fun f => size_le_of_reads hreads (hwalk.sound_last hstart), fun rest hrest => ?_⟩
  · have hcursor := (hsound c hc).1
    refine ⟨hcursor, byteCount_toList line ▸ hcursor.position_add_left,
      exists_front_of_sound hcursor, fun x rest hrest => ?_⟩
    rw [hrest]
    exact sliceFrom_append [x] rest
  · obtain ⟨hresult, hcursor, _⟩ := hreads.of_close hrest
    exact ⟨hresult, hcursor⟩

/-- Of the 18 bytes 15 are consumed, and 7 turns are taken for that. -/
theorem reading_progresses_adjacent :
    let line := " (or (not P)Q ) )x"
    let f := Formula.apply .disj [(symbol "P").negate, symbol "Q"]
    ∃ o : Outcome Formula, readExpression 37 (Cursor.ofLine line.toList) = some o ∧
      o.result = .ok f ∧ o.cursor.remaining = [' ', ')', 'x'] ∧ o.cursor.position = 15 ∧
      f.size ≤ max 1 o.cursor.position ∧ o.calls.length ≤ 127 ∧ o.turns.length = 7 ∧
      ∀ t ∈ o.turns, t.Advances o.calls := by
  intro line f
  obtain ⟨o, hfuel, hread, hsound, _, hturns, hcalls, hsize, _⟩ := reading_progresses line
  have ho := hfuel 37 (by decide)
  have hline : read line = .ok ⟨f, [' ', ')', 'x']⟩ := read_eq_ok_iff.mpr (by decide +kernel)
  obtain ⟨g, hresult, hreading⟩ := map_eq_ok_iff.mp (hread.symm.trans hline)
  obtain ⟨rfl, hremaining⟩ := Reading.mk.inj hreading
  have hposition : o.cursor.position = 15 := by
    obtain ⟨_, htotal, _⟩ := hsound o.cursor (List.mem_append_right _ List.mem_cons_self)
    have hleft : o.cursor.left = 3 := congrArg byteCount hremaining
    have hbytes : line.utf8ByteSize = 18 := by decide
    omega
  have hcount : (readExpression 37 (Cursor.ofLine line.toList)).map (·.turns.length) = some 7 := by
    decide +kernel
  rw [ho] at hcount
  exact ⟨o, ho, hresult, hremaining, hposition, hsize f hresult, hcalls, Option.some.inj hcount,
    hturns⟩

end Propositional.Formula
