import Propositional.Formula.Descent
import Propositional.Proofs.Descent.Cursor

namespace Propositional.Formula

/-- The way of a cursor over some calls: each makes of the cursor what the next one finds. -/
inductive Walk : Cursor → List Cursor → Cursor → Prop
  | nil (c : Cursor) : Walk c [] c
  | cons {c d e : Cursor} {calls : List Cursor} (hcall : c.Moves d) (hlater : Walk d calls e) :
      Walk c (c :: calls) e

namespace Walk

variable {line : List Char} {c d e : Cursor} {calls later : List Cursor}

theorem append (h : Walk c calls d) (hlater : Walk d later e) : Walk c (calls ++ later) e := by
  induction h with
  | nil c => exact hlater
  | cons hcall _ ih => exact .cons hcall (ih hlater)

/-- On a way from a sound cursor every cursor is sound, and what remains only gets less. -/
theorem sound (h : Walk c calls d) (hc : c.Sound line) :
    (∀ x ∈ calls ++ [d], x.Sound line ∧ x.remaining <:+ c.remaining) ∧
      (calls ++ [d]).Pairwise fun x y => y.remaining <:+ x.remaining := by
  induction h with
  | nil c =>
    refine ⟨fun x hx => ?_, List.pairwise_singleton _ c⟩
    obtain rfl := List.mem_singleton.mp hx
    exact ⟨hc, List.suffix_rfl⟩
  | @cons c d e calls hcall _ ih =>
    obtain ⟨hd, hcd⟩ := hcall.sound hc
    obtain ⟨hlater, hpairs⟩ := ih hd
    have hfrom : ∀ x ∈ calls ++ [e], x.remaining <:+ c.remaining :=
      fun x hx => (hlater x hx).2.trans hcd
    rw [List.cons_append]
    exact ⟨List.forall_mem_cons.mpr ⟨⟨hc, List.suffix_rfl⟩,
      fun x hx => ⟨(hlater x hx).1, hfrom x hx⟩⟩, .cons hfrom hpairs⟩

theorem sound_last (h : Walk c calls d) (hc : c.Sound line) : d.Sound line :=
  ((h.sound hc).1 d (List.mem_append_right calls List.mem_cons_self)).1

end Walk

namespace Descent

variable {α β : Type}

section Bind

variable {x : Descent α} {next : α → Descent β} {c d : Cursor} {calls : List Cursor}
  {turns : List Turn} {a : α} {e : ParseError}

theorem bind_of_ok (h : x c = some ⟨calls, turns, d, .ok a⟩) :
    (x >>= next) c = (next a d).map (·.behind calls turns) := by
  change x.bind next c = _
  rw [Descent.bind, h]

theorem bind_of_error (h : x c = some ⟨calls, turns, d, .error e⟩) :
    (x >>= next) c = some ⟨calls, turns, d, .error e⟩ := by
  change x.bind next c = _
  rw [Descent.bind, h]

theorem cases_of_bind {o : Outcome β} (h : (x >>= next) c = some o) :
    (∃ calls turns d e, x c = some ⟨calls, turns, d, .error e⟩ ∧ o = ⟨calls, turns, d, .error e⟩) ∨
      ∃ calls turns d a later, x c = some ⟨calls, turns, d, .ok a⟩ ∧ next a d = some later ∧
        o = later.behind calls turns := by
  change x.bind next c = some o at h
  rw [Descent.bind] at h
  cases hfirst : x c with
  | none =>
    rw [hfirst] at h
    cases h
  | some first =>
    obtain ⟨calls, turns, d, result⟩ := first
    rw [hfirst] at h
    cases result with
    | error e => exact .inl ⟨calls, turns, d, e, rfl, (Option.some.inj h).symm⟩
    | ok a =>
      obtain ⟨later, hlater, rfl⟩ := Option.map_eq_some_iff.mp h
      exact .inr ⟨calls, turns, d, a, later, rfl, hlater, rfl⟩

end Bind

/-- A part of the reader that changes the cursor through calls only. -/
def Walks (x : Descent α) : Prop :=
  ∀ c o, x c = some o → Walk c o.calls o.cursor

theorem Walks.bind {x : Descent α} {next : α → Descent β} (hx : x.Walks)
    (hnext : ∀ a, (next a).Walks) : (x >>= next).Walks := by
  intro c o h
  obtain ⟨calls, turns, d, e, hfirst, rfl⟩ | ⟨calls, turns, d, a, later, hfirst, hlater, rfl⟩ :=
    cases_of_bind h
  · exact hx c _ hfirst
  · exact (hx c _ hfirst).append (hnext a d later hlater)

theorem walks_of_still (turns : Cursor → List Turn) (result : Cursor → Except ParseError α) :
    Walks fun c => some ⟨[], turns c, c, result c⟩ := by
  intro c o h
  obtain rfl := Option.some.inj h
  exact .nil c

theorem walks_of_moves {move : Cursor → Cursor} (hmove : ∀ c : Cursor, c.Moves (move c))
    (result : Cursor → Except ParseError α) : Walks fun c => some ⟨[c], [], move c, result c⟩ := by
  intro c o h
  obtain rfl := Option.some.inj h
  exact .cons (hmove c) (.nil _)

theorem walks_pure (a : α) : Walks (pure a : Descent α) :=
  walks_of_still (fun _ => []) fun _ => .ok a

theorem walks_fail (e : ParseError) : Walks (fail e : Descent α) :=
  walks_of_still (fun _ => []) fun _ => .error e

theorem walks_exhausted : Walks (exhausted : Descent α) := by
  intro c o h
  cases h

theorem walks_current : Walks current :=
  walks_of_still (fun _ => []) .ok

theorem walks_turned (before : Cursor) (operand? : Option Formula) :
    Walks (turned before operand?) :=
  walks_of_still (fun c => [⟨before, c, operand?⟩]) fun _ => .ok ()

theorem walks_position : Walks position :=
  walks_of_moves (fun _ => .asked) _

theorem walks_peek : Walks peek :=
  walks_of_moves (fun _ => .filled) _

theorem walks_bump : Walks bump :=
  walks_of_moves (fun _ => .bumped) _

theorem walks_unexpected (c : Char) : Walks (unexpected c : Descent α) :=
  walks_position.bind fun _ => walks_fail _

theorem walks_takeWord : Walks takeWord := by
  refine walks_peek.bind fun token? => ?_
  split
  · exact walks_bump.bind fun _ => walks_pure _
  · exact walks_pure _

theorem walks_readWord : Walks readWord := by
  refine walks_takeWord.bind fun word => walks_peek.bind fun token? => ?_
  split
  · exact walks_unexpected _
  · exact walks_unexpected _
  · exact walks_pure _

/-- Whatever the fuel, the readers move the cursor through calls only. -/
theorem walks_readers (fuel : Nat) :
    (readExpression fuel).Walks ∧ ∀ operands, (readOperands fuel operands).Walks := by
  induction fuel with
  | zero =>
    simp only [readExpression, readOperands]
    exact ⟨walks_exhausted, fun _ => walks_exhausted⟩
  | succ fuel ih =>
    obtain ⟨hexpression, hoperands⟩ := ih
    constructor
    · rw [readExpression]
      refine walks_current.bind fun before => walks_peek.bind fun token? => ?_
      split
      · exact walks_fail _
      · exact walks_bump.bind fun _ => (walks_turned _ _).bind fun _ => hexpression
      · exact walks_bump.bind fun _ => walks_readWord.bind fun _ =>
          (hoperands []).bind fun _ => walks_pure _
      · exact walks_readWord.bind fun _ => walks_pure _
    · intro operands
      rw [readOperands]
      refine walks_current.bind fun before => walks_peek.bind fun token? => ?_
      split
      · exact walks_position.bind fun _ => walks_fail _
      · exact walks_bump.bind fun _ => (walks_turned _ _).bind fun _ => hoperands operands
      · exact walks_bump.bind fun _ => walks_pure _
      · exact hexpression.bind fun _ => (walks_turned _ _).bind fun _ => hoperands _

/-- Wherever the first part has an outcome, the second has the same. -/
def Within (x y : Descent α) : Prop :=
  ∀ c o, x c = some o → y c = some o

theorem Within.refl (x : Descent α) : x.Within x := fun _ _ => id

theorem Within.bind {x y : Descent α} {next other : α → Descent β} (hx : x.Within y)
    (hnext : ∀ a, (next a).Within (other a)) : (x >>= next).Within (y >>= other) := by
  intro c o h
  obtain ⟨calls, turns, d, e, hfirst, rfl⟩ | ⟨calls, turns, d, a, later, hfirst, hlater, rfl⟩ :=
    cases_of_bind h
  · exact bind_of_error (hx c _ hfirst)
  · rw [bind_of_ok (hx c _ hfirst), hnext a d later hlater]
    rfl

/-- More fuel changes no outcome. -/
theorem within_of_le {fuel more : Nat} (hmore : fuel ≤ more) :
    (readExpression fuel).Within (readExpression more) ∧
      ∀ operands, (readOperands fuel operands).Within (readOperands more operands) := by
  induction fuel generalizing more with
  | zero =>
    constructor
    · intro c o h
      cases h
    · intro operands c o h
      cases h
  | succ fuel ih =>
    cases more with
    | zero => cases hmore
    | succ more =>
      obtain ⟨hexpression, hoperands⟩ := ih (Nat.le_of_succ_le_succ hmore)
      constructor
      · rw [readExpression, readExpression]
        refine (Within.refl current).bind fun before => (Within.refl peek).bind fun token? => ?_
        split
        · exact .refl _
        · exact (Within.refl bump).bind fun _ => (Within.refl _).bind fun _ => hexpression
        · exact (Within.refl bump).bind fun _ => (Within.refl readWord).bind fun _ =>
            (hoperands []).bind fun _ => .refl _
        · exact .refl _
      · intro operands
        rw [readOperands, readOperands]
        refine (Within.refl current).bind fun before => (Within.refl peek).bind fun token? => ?_
        split
        · exact .refl _
        · exact (Within.refl bump).bind fun _ => (Within.refl _).bind fun _ => hoperands operands
        · exact .refl _
        · exact hexpression.bind fun _ => (Within.refl _).bind fun _ => hoperands _

end Descent

end Propositional.Formula
