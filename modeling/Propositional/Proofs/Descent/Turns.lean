import Propositional.Proofs.Descent.Walk

namespace Propositional.Formula

open Reader

/-- The same outcome with another result. -/
def Outcome.map {α β : Type} (f : α → β) (o : Outcome α) : Outcome β :=
  ⟨o.calls, o.turns, o.cursor, o.result.map f⟩

namespace Descent

variable {α β : Type} {line rest : List Char} {c d : Cursor} {x : Descent α}
  {next : α → Descent β} {calls : List Cursor} {turns : List Turn} {a : α} {e : ParseError}
  {token : Token}

theorem bind_pure_of_eq {o : Outcome α} (h : x c = some o) (f : α → β) :
    (x >>= fun a => pure (f a)) c = some (o.map f) := by
  obtain ⟨calls, turns, d, result⟩ := o
  cases result with
  | error e => exact bind_of_error h
  | ok a =>
    rw [bind_of_ok h]
    exact congrArg some (by simp [Outcome.behind, Outcome.map, Except.map])

theorem current_bind (next : Cursor → Descent β) : (current >>= next) c = next c c := by
  rw [bind_of_ok (x := current) rfl]
  exact Option.map_id' ..

theorem peek_bind (hc : c.Sound line) (next : Option Token → Descent β) :
    (peek >>= next) c =
      (next ((lex c.remaining).map Prod.fst) c.filled).map (·.behind [c] []) := by
  have hpeeked : c.filled.peeked = lex c.remaining := by rw [hc.filled_eq]
  rw [bind_of_ok (x := peek) rfl, hpeeked]

/-- Behind a look at the next token this token is taken. -/
theorem bump_filled (hc : c.Sound line) (hlex : lex c.remaining = some (token, rest)) :
    bump c.filled = some ⟨[c.filled], [], c.movedTo rest, .ok ()⟩ := by
  have hbumped : c.filled.bumped = c.movedTo rest := by
    rw [← c.movedTo_filled rest]
    exact hc.filled.bumped_eq (by rw [c.remaining_filled, hlex])
  rw [bump, hbumped]

/-- A turn that takes spaces off the line, and what is read behind them. -/
theorem bump_turned_eq {o : Outcome α} (hc : c.Sound line)
    (hlex : lex c.remaining = some (token, rest)) (h : x (c.movedTo rest) = some o) :
    ((bump >>= fun _ => turned c none >>= fun _ => x) c.filled).map (·.behind [c] []) =
      some (o.behind [c, c.filled] [⟨c, c.movedTo rest, none⟩]) := by
  rw [bind_of_ok (bump_filled hc hlex), bind_of_ok (x := turned c none) rfl, h]
  rfl

end Descent

/-- What reading a word comes to: it is the longest one there is, and what ends it either may stand
    behind a word or is refused. -/
inductive ReadsWord (line text : List Char) : Outcome (List Char) → Prop
  | ends {word : List Char} {calls : List Cursor} {d : Cursor}
      (htext : text = word ++ d.remaining) (hword : ∀ x ∈ word, Text.isWordChar x = true)
      (hrest : ∀ x ∈ d.remaining.head?, EndsWord x) (hcalls : calls.length ≤ 3)
      (hd : d.Sound line) : ReadsWord line text ⟨calls, [], d, .ok word⟩
  | refuses {word rest : List Char} {x : Char} {calls : List Cursor} {d : Cursor}
      (htext : text = word ++ d.remaining) (hword : ∀ x ∈ word, Text.isWordChar x = true)
      (hrest : d.remaining = x :: rest) (hother : Text.isWordChar x = false)
      (hends : ¬ EndsWord x) (hcalls : calls.length ≤ 4) (hd : d.Sound line) :
      ReadsWord line text ⟨calls, [], d, .error (.unexpectedCharacter x d.position)⟩

mutual

/-- What reading an expression from a cursor on comes to, one case for each way a turn can go. -/
inductive ReadsExpression (line : List Char) : Cursor → Outcome Formula → Prop
  | missing {c : Cursor} (hend : c.remaining = []) :
      ReadsExpression line c ⟨[c], [], c.filled, .error .emptyInput⟩
  | space {c : Cursor} {rest : List Char} {o : Outcome Formula}
      (hspace : Lexed c.remaining .spaces rest) (h : ReadsExpression line (c.movedTo rest) o) :
      ReadsExpression line c (o.behind [c, c.filled] [⟨c, c.movedTo rest, none⟩])
  | unnamed {c d : Cursor} {rest : List Char} {calls : List Cursor} {e : ParseError}
      (hopen : Lexed c.remaining .opening rest)
      (hword : ReadsWord line rest ⟨calls, [], d, .error e⟩) :
      ReadsExpression line c ⟨c :: c.filled :: calls, [], d, .error e⟩
  | apply {c d : Cursor} {rest word : List Char} {calls : List Cursor}
      {o : Outcome (List Formula)} (hopen : Lexed c.remaining .opening rest)
      (hword : ReadsWord line rest ⟨calls, [], d, .ok word⟩) (h : ReadsOperands line [] d o) :
      ReadsExpression line c
        ((o.map (.apply (.ofWord (String.ofList word)))).behind (c :: c.filled :: calls) [])
  | symbol {c : Cursor} {x : Char} {rest : List Char} {o : Outcome (List Char)}
      (hfirst : c.remaining = x :: rest) (hspace : x ≠ ' ') (hopen : x ≠ '(')
      (hword : ReadsWord line c.remaining o) :
      ReadsExpression line c ((o.map fun word => .symbol (String.ofList word)).behind [c] [])

/-- The same for the operands behind those read so far. -/
inductive ReadsOperands (line : List Char) :
    List Formula → Cursor → Outcome (List Formula) → Prop
  | missing {operands : List Formula} {c : Cursor} (hend : c.remaining = []) :
      ReadsOperands line operands c
        ⟨[c, c.filled], [], c.filled, .error (.unexpectedEnd c.filled.position)⟩
  | space {operands : List Formula} {c : Cursor} {rest : List Char} {o : Outcome (List Formula)}
      (hspace : Lexed c.remaining .spaces rest)
      (h : ReadsOperands line operands (c.movedTo rest) o) :
      ReadsOperands line operands c (o.behind [c, c.filled] [⟨c, c.movedTo rest, none⟩])
  | close {operands : List Formula} {c : Cursor} {rest : List Char}
      (hclose : Lexed c.remaining .closing rest) :
      ReadsOperands line operands c ⟨[c, c.filled], [], c.movedTo rest, .ok operands⟩
  | refused {operands : List Formula} {c d : Cursor} {x : Char} {rest : List Char}
      {calls : List Cursor} {turns : List Turn} {e : ParseError}
      (hfirst : c.remaining = x :: rest) (hends : ¬ EndsWord x)
      (h : ReadsExpression line c.filled ⟨calls, turns, d, .error e⟩) :
      ReadsOperands line operands c ⟨c :: calls, turns, d, .error e⟩
  | operand {operands : List Formula} {c d : Cursor} {x : Char} {rest : List Char}
      {calls : List Cursor} {turns : List Turn} {f : Formula} {o : Outcome (List Formula)}
      (hfirst : c.remaining = x :: rest) (hends : ¬ EndsWord x)
      (h : ReadsExpression line c.filled ⟨calls, turns, d, .ok f⟩) (hd : d.Sound line)
      (hlater : ReadsOperands line (operands ++ [f]) d o) :
      ReadsOperands line operands c (o.behind (c :: calls) (turns ++ [⟨c, d, some f⟩]))

end

section Word

variable {line text : List Char} {c : Cursor}

theorem ReadsWord.sound {o : Outcome (List Char)} (h : ReadsWord line text o) :
    o.cursor.Sound line := by
  cases h with
  | ends _ _ _ _ hd => exact hd
  | refuses _ _ _ _ _ _ hd => exact hd

theorem Descent.takeWord_eq (hc : c.Sound line) :
    Descent.takeWord c =
      match lex c.remaining with
      | some (.word word, rest) => some ⟨[c, c.filled], [], c.movedTo rest, .ok word⟩
      | _ => some ⟨[c], [], c.filled, .ok []⟩ := by
  rw [Descent.takeWord, Descent.peek_bind hc]
  cases hlex : lex c.remaining with
  | none => rfl
  | some lexed =>
    obtain ⟨token, rest⟩ := lexed
    cases token with
    | word word =>
      simp only [Option.map_some, Descent.bind_of_ok (Descent.bump_filled hc hlex)]
      rfl
    | _ => rfl

theorem exists_takeWord_eq (hc : c.Sound line) :
    ∃ word calls d, Descent.takeWord c = some ⟨calls, [], d, .ok word⟩ ∧
      c.remaining = word ++ d.remaining ∧ (∀ x ∈ word, Text.isWordChar x = true) ∧
      (∀ x ∈ d.remaining.head?, Text.isWordChar x = false) ∧ calls.length ≤ 2 := by
  rw [Descent.takeWord_eq hc]
  split
  · rename_i word rest hlex
    obtain ⟨htext, hword, hrest⟩ := (lexed_of_lex hlex).of_word
    exact ⟨word, [c, c.filled], c.movedTo rest, rfl, htext, hword, hrest, Nat.le_refl 2⟩
  · rename_i hother
    refine ⟨[], [c], c.filled, rfl, c.remaining_filled.symm, nofun, ?_, Nat.le_succ 1⟩
    rw [c.remaining_filled]
    intro x hx
    cases hlex : lex c.remaining with
    | none =>
      rw [lex_eq_none_iff.mp hlex] at hx
      cases hx
    | some lexed =>
      obtain ⟨token, rest⟩ := lexed
      obtain ⟨y, behind, htext, hfirst⟩ := (lexed_of_lex hlex).exists_eq_cons
      rw [htext] at hx
      obtain rfl := Option.some.inj hx
      refine hfirst.isWordChar_eq_false fun word hword => hother word rest ?_
      rw [hlex, hword]

/-- What stands behind the word decides whether it is one. -/
theorem exists_readWord_eq (hc : c.Sound line) :
    ∃ o, Descent.readWord c = some o ∧ ReadsWord line c.remaining o := by
  obtain ⟨word, calls, d, htake, htext, hword, hother, hcalls⟩ := exists_takeWord_eq hc
  have hd : d.Sound line := (Descent.walks_takeWord c _ htake).sound_last hc
  have htext' : c.remaining = word ++ d.filled.remaining := by rw [d.remaining_filled, htext]
  have hone : (calls ++ [d]).length ≤ 3 :=
    List.length_append.trans_le (Nat.add_le_add_right hcalls 1)
  have htwo : (calls ++ [d, d.filled]).length ≤ 4 :=
    List.length_append.trans_le (Nat.add_le_add_right hcalls 2)
  rw [Descent.readWord, Descent.bind_of_ok htake, Descent.peek_bind hd]
  cases hlex : lex d.remaining with
  | none =>
    have hrest : ∀ x ∈ d.filled.remaining.head?, EndsWord x := by
      rw [d.remaining_filled, lex_eq_none_iff.mp hlex]
      nofun
    exact ⟨_, rfl, .ends htext' hword hrest hone hd.filled⟩
  | some lexed =>
    obtain ⟨token, rest⟩ := lexed
    obtain ⟨x, behind, hbehind, hfirst⟩ := (lexed_of_lex hlex).exists_eq_cons
    have hnotWord : Text.isWordChar x = false := hother x (by rw [hbehind]; rfl)
    rw [← d.remaining_filled] at hbehind
    have hrest : EndsWord x → ∀ y ∈ d.filled.remaining.head?, EndsWord y := by
      rw [hbehind]
      rintro hx y hy
      obtain rfl := Option.some.inj hy
      exact hx
    cases token with
    | spaces => exact ⟨_, rfl, .ends htext' hword (hrest (.inl hfirst)) hone hd.filled⟩
    | closing => exact ⟨_, rfl, .ends htext' hword (hrest (.inr hfirst)) hone hd.filled⟩
    | word _ => exact absurd hfirst (Bool.eq_false_iff.mp hnotWord)
    | opening =>
      obtain rfl := hfirst
      exact ⟨_, rfl, .refuses htext' hword hbehind rfl (by simp [EndsWord]) htwo hd.filled⟩
    | unexpected y =>
      obtain ⟨rfl, _, hends, _⟩ := hfirst
      exact ⟨_, rfl, .refuses htext' hword hbehind hnotWord hends htwo hd.filled⟩

end Word

end Propositional.Formula
