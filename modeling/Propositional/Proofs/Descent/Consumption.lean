import Propositional.Proofs.Descent.Turns
import Propositional.Proofs.Except

namespace Propositional.Formula

open Reader

section Progress

variable {line text rest word : List Char} {c : Cursor} {f : Formula}

theorem Cursor.left_movedTo_lt {token : Token} (h : Lexed c.remaining token rest) :
    (c.movedTo rest).left < c.left := by
  obtain ⟨front, hne, htext⟩ := h.exists_eq_append
  have hfront := byteCount_pos hne
  have hbytes : c.left = byteCount front + byteCount rest := by
    rw [Cursor.left, htext, byteCount_append]
  rw [hbytes]
  exact Nat.lt_add_of_pos_left hfront

theorem ReadsWord.left_le {o : Outcome (List Char)} (h : ReadsWord line text o) :
    o.cursor.left ≤ byteCount text := by
  cases h with
  | ends htext _ _ _ _ =>
    rw [htext, byteCount_append]
    exact Nat.le_add_left _ _
  | refuses htext _ _ _ _ _ _ =>
    rw [htext, byteCount_append]
    exact Nat.le_add_left _ _

theorem ReadsWord.not_mem_turns {o : Outcome (List Char)} (h : ReadsWord line text o) (t : Turn) :
    t ∉ o.turns := by
  cases h with
  | ends _ _ _ _ _ => exact List.not_mem_nil
  | refuses _ _ _ _ _ _ _ => exact List.not_mem_nil

theorem ReadsWord.length_calls_le {o : Outcome (List Char)} (h : ReadsWord line text o) :
    o.calls.length ≤ 4 := by
  cases h with
  | ends _ _ _ hcalls _ => exact hcalls.trans (Nat.le_succ 3)
  | refuses _ _ _ _ _ hcalls _ => exact hcalls

theorem ReadsWord.of_ok {o : Outcome (List Char)} (h : ReadsWord line text o)
    (hok : o.result = .ok word) :
    text = word ++ o.cursor.remaining ∧ (∀ x ∈ word, Text.isWordChar x = true) ∧
      (∀ x ∈ o.cursor.remaining.head?, EndsWord x) ∧ o.calls.length ≤ 3 := by
  cases h with
  | ends htext hword hrest hcalls _ =>
    obtain rfl := Except.ok.inj hok
    exact ⟨htext, hword, hrest, hcalls⟩
  | refuses _ _ _ _ _ _ _ => cases hok

/-- In front of a closing parenthesis stands the word without characters. -/
theorem ReadsWord.of_close {o : Outcome (List Char)} (h : ReadsWord line (')' :: rest) o) :
    o.result = .ok [] ∧ o.cursor.remaining = ')' :: rest := by
  cases h with
  | @ends word _ d htext hword _ _ _ =>
    cases word with
    | nil => exact ⟨rfl, htext.symm⟩
    | cons x word =>
      obtain ⟨rfl, _⟩ := List.cons.inj htext
      cases hword ')' List.mem_cons_self
  | @refuses word _ x _ d htext hword hrest _ hends _ _ =>
    cases word with
    | nil =>
      obtain ⟨rfl, _⟩ := List.cons.inj (htext.trans hrest)
      exact absurd (.inr rfl) hends
    | cons x word =>
      obtain ⟨rfl, _⟩ := List.cons.inj htext
      cases hword ')' List.mem_cons_self

/-- An expression in front of a closing parenthesis is the symbol without characters, for which
    nothing is consumed. -/
theorem ReadsExpression.of_close {o : Outcome Formula} (h : ReadsExpression line c o)
    (hclose : c.remaining = ')' :: rest) :
    o.result = .ok (.symbol "") ∧ o.cursor.remaining = c.remaining ∧ o.calls.length ≤ 4 := by
  cases h with
  | missing hend => cases hend.symm.trans hclose
  | space hspace _ =>
    obtain ⟨x, behind, htext, hx⟩ := hspace.exists_eq_cons
    obtain rfl : x = ' ' := hx
    cases htext.symm.trans hclose
  | unnamed hopen _ => cases hopen.eq_of_opening.symm.trans hclose
  | apply hopen _ _ => cases hopen.eq_of_opening.symm.trans hclose
  | symbol _ _ _ hword =>
    rw [hclose] at hword ⊢
    obtain ⟨hresult, hcursor⟩ := hword.of_close
    obtain ⟨_, _, _, hcalls⟩ := hword.of_ok hresult
    refine ⟨?_, hcursor, Nat.succ_le_succ hcalls⟩
    simp only [Outcome.behind, Outcome.map, hresult, Except.map]

/-- A symbol has characters unless a closing parenthesis stands in its place. -/
theorem ReadsWord.left_lt_of_symbol {o : Outcome (List Char)} {x : Char}
    (h : ReadsWord line (x :: rest) o) (hok : o.result = .ok word) (hspace : x ≠ ' ')
    (hclose : x ≠ ')') : o.cursor.left < byteCount (x :: rest) := by
  obtain ⟨htext, _, hrest, _⟩ := h.of_ok hok
  cases word with
  | nil =>
    rw [List.nil_append] at htext
    rw [← htext] at hrest
    exact absurd (hrest x rfl) (not_or.mpr ⟨hspace, hclose⟩)
  | cons y word =>
    have hfront := byteCount_pos (List.cons_ne_nil y word)
    rw [htext, byteCount_append]
    exact Nat.lt_add_of_pos_left hfront

theorem Cursor.head_filled_ne_close {x : Char} (hfirst : c.remaining = x :: rest)
    (hends : ¬ EndsWord x) : c.filled.remaining.head? ≠ some ')' := by
  rw [c.remaining_filled, hfirst]
  exact fun hx => hends (.inr (Option.some.inj hx))

theorem sizeAll_concat (fs : List Formula) (f : Formula) :
    sizeAll (fs ++ [f]) = sizeAll fs + f.size := by
  induction fs with
  | nil => simp only [List.nil_append, sizeAll, Nat.add_comm]
  | cons g fs ih => simp only [List.cons_append, sizeAll, ih, Nat.add_assoc]

mutual

/-- Anywhere else an expression consumes at least as many bytes as it has symbols and
    connectives. -/
theorem ReadsExpression.size_add_left_le {line : List Char} {c : Cursor} {o : Outcome Formula}
    {f : Formula} :
    ReadsExpression line c o → o.result = .ok f → c.remaining.head? ≠ some ')' →
      f.size + o.cursor.left ≤ c.left
  | .missing _, hok, _ => nomatch hok
  | @ReadsExpression.space _ _ rest _ hspace h, hok, _ => by
    have hlt := Cursor.left_movedTo_lt hspace
    by_cases hclose : rest.head? = some ')'
    · obtain ⟨behind, hrest⟩ := List.head?_eq_some_iff.mp hclose
      obtain ⟨hresult, hcursor, _⟩ := h.of_close hrest
      obtain rfl := Except.ok.inj (hresult.symm.trans hok)
      rw [Formula.size, Outcome.behind, Cursor.left, hcursor, Nat.one_add]
      exact hlt
    · exact (h.size_add_left_le hok hclose).trans hlt.le
  | .unnamed _ _, hok, _ => nomatch hok
  | @ReadsExpression.apply _ c _ rest _ _ _ hopen hword h, hok, _ => by
    obtain ⟨fs, hfs, rfl⟩ := map_eq_ok_iff.mp hok
    have hoperands := h.sizeAll_add_left_lt hfs
    have hname := hword.left_le
    have hlt : byteCount rest < c.left := Cursor.left_movedTo_lt hopen
    simp only [Formula.size, Outcome.behind, Outcome.map, sizeAll] at hoperands hname ⊢
    omega
  | .symbol hfirst hspace _ hword, hok, hclose => by
    obtain ⟨word, hread, rfl⟩ := map_eq_ok_iff.mp hok
    rw [hfirst] at hword hclose
    have hlt := hword.left_lt_of_symbol hread hspace (fun hx => hclose (congrArg some hx))
    rw [← hfirst] at hlt
    rw [Formula.size, Nat.one_add]
    exact hlt

/-- Operands consume one byte more, for the closing parenthesis. -/
theorem ReadsOperands.sizeAll_add_left_lt {line : List Char} {c : Cursor}
    {o : Outcome (List Formula)} {operands fs : List Formula} :
    ReadsOperands line operands c o → o.result = .ok fs →
      sizeAll fs + o.cursor.left < sizeAll operands + c.left
  | .missing _, hok => nomatch hok
  | .space hspace h, hok =>
    (h.sizeAll_add_left_lt hok).trans
      (Nat.add_lt_add_left (Cursor.left_movedTo_lt hspace) _)
  | .close hclose, hok => by
    obtain rfl := Except.ok.inj hok
    exact Nat.add_lt_add_left (Cursor.left_movedTo_lt hclose) _
  | .refused _ _ _, hok => nomatch hok
  | .operand (c := c) (f := f) hfirst hends h _ hlater, hok => by
    have hoperand := h.size_add_left_le rfl (Cursor.head_filled_ne_close hfirst hends)
    have hoperands := hlater.sizeAll_add_left_lt hok
    rw [c.left_filled] at hoperand
    rw [sizeAll_concat] at hoperands
    simp only [Outcome.behind] at hoperand ⊢
    omega

end

/-- Each operand consumes something, since none begins with a closing parenthesis. -/
theorem ReadsExpression.size_add_left_le_of_operand {o : Outcome Formula} {x : Char}
    (h : ReadsExpression line c.filled o) (hok : o.result = .ok f)
    (hfirst : c.remaining = x :: rest) (hends : ¬ EndsWord x) : f.size + o.cursor.left ≤ c.left := by
  rw [← c.left_filled]
  exact h.size_add_left_le hok (Cursor.head_filled_ne_close hfirst hends)

theorem ReadsExpression.mem_calls {o : Outcome Formula} (h : ReadsExpression line c o) :
    c ∈ o.calls := by
  cases h with
  | missing _ => exact List.mem_cons_self
  | space _ _ => exact List.mem_cons_self
  | unnamed _ _ => exact List.mem_cons_self
  | apply _ _ _ => exact List.mem_cons_self
  | symbol _ _ _ _ => exact List.mem_cons_self

theorem ReadsOperands.mem_calls {operands : List Formula} {o : Outcome (List Formula)}
    (h : ReadsOperands line operands c o) : c ∈ o.calls := by
  cases h with
  | missing _ => exact List.mem_cons_self
  | space _ _ => exact List.mem_cons_self
  | close _ => exact List.mem_cons_self
  | refused _ _ _ => exact List.mem_cons_self
  | operand _ _ _ _ _ => exact List.mem_cons_self

/-- A turn leads from one of some calls to another one, which stands nearer to the end of the line.
    Where it adds an operand it consumes at least as many bytes as this has symbols and
    connectives. -/
structure Turn.Advances (calls : List Cursor) (t : Turn) : Prop where
  before_mem : t.before ∈ calls
  after_mem : t.after ∈ calls
  left_lt : t.after.left < t.before.left
  size_le : ∀ f, t.operand? = some f → f.size + t.after.left ≤ t.before.left

theorem Turn.Advances.mono {calls later : List Cursor} {t : Turn} (h : t.Advances calls)
    (hsub : calls ⊆ later) : t.Advances later :=
  ⟨hsub h.before_mem, hsub h.after_mem, h.left_lt, h.size_le⟩

theorem Turn.advances_space {calls : List Cursor} (hspace : Lexed c.remaining .spaces rest)
    (hnext : c.movedTo rest ∈ calls) :
    Turn.Advances ([c, c.filled] ++ calls) ⟨c, c.movedTo rest, none⟩ :=
  ⟨List.mem_cons_self, List.mem_append_right _ hnext, Cursor.left_movedTo_lt hspace, nofun⟩

theorem Turn.advances_operand {calls later : List Cursor} {d : Cursor} (hnext : d ∈ later)
    (hsize : f.size + d.left ≤ c.left) :
    Turn.Advances (c :: calls ++ later) ⟨c, d, some f⟩ := by
  refine ⟨List.mem_cons_self, List.mem_append_right _ hnext,
    (Nat.lt_add_of_pos_left f.size_pos).trans_le hsize, fun g hg => ?_⟩
  obtain rfl := Option.some.inj hg
  exact hsize

-- Behind a turn the loop goes on with another one, which begins with a call on the cursor that the
-- turn has left.
mutual

theorem ReadsExpression.advances {line : List Char} {c : Cursor} {o : Outcome Formula} :
    ReadsExpression line c o → ∀ t ∈ o.turns, t.Advances o.calls
  | .missing _ => List.forall_mem_nil _
  | .space hspace h =>
    List.forall_mem_cons.mpr ⟨Turn.advances_space hspace h.mem_calls,
      fun t ht => (h.advances t ht).mono (List.subset_append_right _ _)⟩
  | .unnamed _ _ => List.forall_mem_nil _
  | .apply _ _ h => fun t ht => (h.advances t ht).mono (List.subset_append_right _ _)
  | .symbol _ _ _ hword => fun t ht => absurd ht (hword.not_mem_turns t)

theorem ReadsOperands.advances {line : List Char} {c : Cursor} {o : Outcome (List Formula)}
    {operands : List Formula} :
    ReadsOperands line operands c o → ∀ t ∈ o.turns, t.Advances o.calls
  | .missing _ => List.forall_mem_nil _
  | .space hspace h =>
    List.forall_mem_cons.mpr ⟨Turn.advances_space hspace h.mem_calls,
      fun t ht => (h.advances t ht).mono (List.subset_append_right _ _)⟩
  | .close _ => List.forall_mem_nil _
  | .refused _ _ h => fun t ht => (h.advances t ht).mono (List.subset_cons_self _ _)
  | @ReadsOperands.operand _ _ c d _ _ calls turns f o hfirst hends h _ hlater => by
    have hchild : ∀ t ∈ turns, t.Advances (c :: calls ++ o.calls) := fun t ht =>
      (h.advances t ht).mono fun x hx => List.mem_append_left _ (List.mem_cons_of_mem c hx)
    have hturn : Turn.Advances (c :: calls ++ o.calls) ⟨c, d, some f⟩ :=
      Turn.advances_operand hlater.mem_calls (h.size_add_left_le_of_operand rfl hfirst hends)
    have hothers : ∀ t ∈ o.turns, t.Advances (c :: calls ++ o.calls) := fun t ht =>
      (hlater.advances t ht).mono (List.subset_append_right _ _)
    exact List.forall_mem_append.mpr
      ⟨List.forall_mem_append.mpr ⟨hchild, List.forall_mem_singleton.mpr hturn⟩, hothers⟩

end

end Progress

section Calls

theorem Outcome.length_calls_behind {α : Type} (o : Outcome α) (calls : List Cursor)
    (turns : List Turn) : (o.behind calls turns).calls.length = calls.length + o.calls.length :=
  List.length_append

-- Seven calls for each byte consumed leave one over for every expression, and that one pays for the
-- look at the token in front of an operand. An expression in front of a closing parenthesis
-- consumes nothing, so its four calls are paid for by the space it stands behind.
mutual

theorem ReadsExpression.length_calls_le {line : List Char} {c : Cursor} {o : Outcome Formula} :
    ReadsExpression line c o → o.calls.length ≤ 7 * c.left + 1 ∧
      ∀ f, o.result = .ok f → c.remaining.head? ≠ some ')' →
        o.calls.length + 1 + 7 * o.cursor.left ≤ 7 * c.left
  | .missing _ => ⟨Nat.le_add_left _ _, nofun⟩
  | @ReadsExpression.space _ c rest o hspace h => by
    obtain ⟨hall, hspent⟩ := h.length_calls_le
    have hlt := Cursor.left_movedTo_lt hspace
    rw [Outcome.length_calls_behind, List.length_cons, List.length_singleton]
    refine ⟨by omega, fun f hok _ => ?_⟩
    simp only [Outcome.behind] at hok ⊢
    by_cases hclose : rest.head? = some ')'
    · obtain ⟨behind, hrest⟩ := List.head?_eq_some_iff.mp hclose
      obtain ⟨_, hcursor, hfew⟩ := h.of_close hrest
      have hleft : o.cursor.left = (c.movedTo rest).left := congrArg byteCount hcursor
      omega
    · have hpaid := hspent f hok hclose
      omega
  | .unnamed hopen hword => by
    have hlt := Cursor.left_movedTo_lt hopen
    have hname := hword.length_calls_le
    simp only [List.length_cons] at hname ⊢
    exact ⟨by omega, nofun⟩
  | @ReadsExpression.apply _ c d rest _ _ _ hopen hword h => by
    obtain ⟨hall, hspent⟩ := h.length_calls_le
    obtain ⟨_, _, _, hname⟩ := hword.of_ok rfl
    have hlt : byteCount rest < c.left := Cursor.left_movedTo_lt hopen
    have hle : d.left ≤ byteCount rest := hword.left_le
    rw [Outcome.length_calls_behind, List.length_cons, List.length_cons]
    refine ⟨?_, fun f hok _ => ?_⟩
    · simp only [Outcome.map] at hname ⊢
      omega
    · obtain ⟨fs, hfs, _⟩ := map_eq_ok_iff.mp hok
      have hpaid := hspent fs hfs
      simp only [Outcome.behind, Outcome.map] at hname ⊢
      omega
  | .symbol (c := c) hfirst hspace _ hword => by
    have hname := hword.length_calls_le
    have hpos : 0 < c.left := byteCount_pos (hfirst ▸ List.cons_ne_nil _ _)
    rw [Outcome.length_calls_behind, List.length_singleton]
    refine ⟨by simp only [Outcome.map]; omega, fun f hok hclose => ?_⟩
    obtain ⟨word, hread, _⟩ := map_eq_ok_iff.mp hok
    obtain ⟨_, _, _, hfew⟩ := hword.of_ok hread
    rw [hfirst] at hword hclose
    have hlt := hword.left_lt_of_symbol hread hspace fun hx => hclose (congrArg some hx)
    rw [← hfirst] at hlt
    simp only [Outcome.behind, Outcome.map, Cursor.left] at hlt ⊢
    omega

theorem ReadsOperands.length_calls_le {line : List Char} {c : Cursor}
    {o : Outcome (List Formula)} {operands : List Formula} :
    ReadsOperands line operands c o → o.calls.length ≤ 7 * c.left + 2 ∧
      ∀ fs, o.result = .ok fs → o.calls.length + 7 * o.cursor.left ≤ 7 * c.left
  | .missing _ => ⟨Nat.le_add_left _ _, nofun⟩
  | .space hspace h => by
    obtain ⟨hall, hspent⟩ := h.length_calls_le
    have hlt := Cursor.left_movedTo_lt hspace
    rw [Outcome.length_calls_behind, List.length_cons, List.length_singleton]
    refine ⟨by omega, fun fs hok => ?_⟩
    have hpaid := hspent fs hok
    simp only [Outcome.behind]
    omega
  | .close hclose => by
    have hlt := Cursor.left_movedTo_lt hclose
    simp only [List.length_cons, List.length_nil]
    exact ⟨by omega, fun _ _ => by omega⟩
  | .refused (c := c) _ _ h => by
    obtain ⟨hall, _⟩ := h.length_calls_le
    rw [c.left_filled] at hall
    exact ⟨Nat.succ_le_succ hall, nofun⟩
  | .operand (c := c) (f := f) hfirst hends h _ hlater => by
    obtain ⟨_, hspent⟩ := h.length_calls_le
    obtain ⟨hall, hspentLater⟩ := hlater.length_calls_le
    have hoperand := hspent f rfl (Cursor.head_filled_ne_close hfirst hends)
    rw [c.left_filled] at hoperand
    rw [Outcome.length_calls_behind, List.length_cons]
    simp only [Outcome.behind] at hoperand ⊢
    refine ⟨by omega, fun fs hok => ?_⟩
    have hpaid := hspentLater fs hok
    omega

end

end Calls

end Propositional.Formula
