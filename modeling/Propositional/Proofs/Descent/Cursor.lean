import Propositional.Formula.Cursor
import Propositional.Proofs.Formula.Steps

namespace Propositional.Formula

open Reader

section Lexing

variable {c : Char} {text rest : List Char} {token : Token} {bytes : Nat}

theorem byteCount_pos (hne : text ≠ []) : 0 < byteCount text := by
  cases text with
  | nil => exact absurd rfl hne
  | cons c text => exact Nat.add_pos_left c.utf8Size_pos _

theorem sliceFrom_cons (h : c.utf8Size ≤ bytes) :
    sliceFrom (c :: rest) bytes = sliceFrom rest (bytes - c.utf8Size) := by
  cases bytes with
  | zero => exact absurd h (Nat.not_le_of_lt c.utf8Size_pos)
  | succ bytes => rw [sliceFrom, if_pos h]

/-- A slice succeeds between two characters. -/
theorem sliceFrom_append (front rest : List Char) :
    sliceFrom (front ++ rest) (byteCount front) = some rest := by
  induction front with
  | nil => cases rest <;> rfl
  | cons c front ih =>
    rw [List.cons_append, byteCount, sliceFrom_cons (Nat.le_add_right _ _),
      Nat.add_sub_cancel_left, ih]

/-- How a text is split where its first token ends. -/
inductive Lexed : List Char → Token → List Char → Prop
  | spaces (more : Nat) {rest : List Char} (hrest : rest.head? ≠ some ' ') :
      Lexed (List.replicate (more + 1) ' ' ++ rest) .spaces rest
  | word {word rest : List Char} (hne : word ≠ [])
      (hword : ∀ c ∈ word, Text.isWordChar c = true)
      (hrest : ∀ c ∈ rest.head?, Text.isWordChar c = false) : Lexed (word ++ rest) (.word word) rest
  | opening (rest : List Char) : Lexed ('(' :: rest) .opening rest
  | closing (rest : List Char) : Lexed (')' :: rest) .closing rest
  | unexpected {c : Char} {rest : List Char} (hword : Text.isWordChar c = false)
      (hends : ¬ EndsWord c) (hopen : c ≠ '(') : Lexed (c :: rest) (.unexpected c) rest

theorem lexed_spaces (rest : List Char) :
    Lexed (' ' :: rest) .spaces (rest.dropWhile (· == ' ')) := by
  obtain ⟨hsplit, hspaces, hhead⟩ := Text.split_takeWhile (· == ' ') rest
  simp only [beq_iff_eq] at hspaces
  have hrest : (rest.dropWhile (· == ' ')).head? ≠ some ' ' := fun hspace => by
    cases hhead ' ' hspace
  have hlexed := Lexed.spaces (rest.takeWhile (· == ' ')).length hrest
  rwa [List.replicate_succ, ← List.eq_replicate_of_mem hspaces, List.cons_append,
    ← hsplit] at hlexed

theorem lexed_word (hc : Text.isWordChar c = true) (rest : List Char) :
    Lexed (c :: rest) (.word (c :: rest.takeWhile Text.isWordChar))
      (rest.dropWhile Text.isWordChar) := by
  obtain ⟨hsplit, hword, hrest⟩ := Text.split_takeWhile Text.isWordChar rest
  have hlexed := Lexed.word (List.cons_ne_nil c _) (List.forall_mem_cons.mpr ⟨hc, hword⟩) hrest
  rwa [List.cons_append, ← hsplit] at hlexed

/-- A text that has not ended goes on with a token. -/
theorem exists_lex_cons_eq (c : Char) (rest : List Char) :
    ∃ token behind, lex (c :: rest) = some (token, behind) ∧ Lexed (c :: rest) token behind := by
  by_cases hspace : c = ' '
  · subst hspace
    exact ⟨_, _, rfl, lexed_spaces rest⟩
  by_cases hword : Text.isWordChar c = true
  · exact ⟨_, _, by simp only [lex, nextToken, if_neg hspace, if_pos hword], lexed_word hword rest⟩
  by_cases hopen : c = '('
  · subst hopen
    exact ⟨_, _, rfl, .opening rest⟩
  by_cases hclose : c = ')'
  · subst hclose
    exact ⟨_, _, rfl, .closing rest⟩
  refine ⟨.unexpected c, rest, ?_,
    .unexpected (Bool.eq_false_iff.mpr hword) (not_or.mpr ⟨hspace, hclose⟩) hopen⟩
  have hslice : sliceFrom (c :: rest) c.utf8Size = some rest := sliceFrom_append [c] rest
  simp only [lex, nextToken, if_neg hspace, if_neg hword, if_neg hopen, if_neg hclose]
  by_cases hfeed : c = '\n'
  · rw [if_pos hfeed]
    simp only [List.head?_cons, Option.bind_eq_bind, Option.bind_some, hslice]
    rfl
  · rw [if_neg hfeed]

theorem lex_eq_none_iff : lex text = none ↔ text = [] := by
  cases text with
  | nil => exact iff_of_true rfl rfl
  | cons c rest =>
    obtain ⟨token, behind, hlex, _⟩ := exists_lex_cons_eq c rest
    simp [hlex]

theorem lexed_of_lex (h : lex text = some (token, rest)) : Lexed text token rest := by
  cases text with
  | nil => cases h
  | cons c text =>
    obtain ⟨other, behind, hlex, hlexed⟩ := exists_lex_cons_eq c text
    obtain ⟨rfl, rfl⟩ := Prod.mk.inj (Option.some.inj (hlex.symm.trans h))
    exact hlexed

/-- A token has characters, and the text behind it begins where they end. -/
theorem Lexed.exists_eq_append (h : Lexed text token rest) :
    ∃ front, front ≠ [] ∧ text = front ++ rest := by
  cases h with
  | spaces more _ => exact ⟨_, by simp, rfl⟩
  | word hne _ _ => exact ⟨_, hne, rfl⟩
  | opening rest => exact ⟨['('], by simp, rfl⟩
  | closing rest => exact ⟨[')'], by simp, rfl⟩
  | @unexpected c _ _ _ _ => exact ⟨[c], by simp, rfl⟩

theorem Lexed.of_spaces (h : Lexed text .spaces rest) :
    ∃ more, text = List.replicate (more + 1) ' ' ++ rest := by
  cases h with
  | spaces more _ => exact ⟨more, rfl⟩

theorem Lexed.of_word {word : List Char} (h : Lexed text (.word word) rest) :
    text = word ++ rest ∧ (∀ c ∈ word, Text.isWordChar c = true) ∧
      ∀ c ∈ rest.head?, Text.isWordChar c = false := by
  cases h with
  | word _ hword hrest => exact ⟨rfl, hword, hrest⟩

theorem Lexed.eq_of_opening (h : Lexed text .opening rest) : text = '(' :: rest := by
  cases h with
  | opening rest => rfl

theorem Lexed.eq_of_closing (h : Lexed text .closing rest) : text = ')' :: rest := by
  cases h with
  | closing rest => rfl

/-- The characters that a token may begin with. -/
def Token.BeginsWith : Token → Char → Prop
  | .word _, c => Text.isWordChar c = true
  | .opening, c => c = '('
  | .closing, c => c = ')'
  | .spaces, c => c = ' '
  | .unexpected d, c => c = d ∧ Text.isWordChar c = false ∧ ¬ EndsWord c ∧ c ≠ '('

theorem Lexed.exists_eq_cons (h : Lexed text token rest) :
    ∃ c behind, text = c :: behind ∧ token.BeginsWith c := by
  cases h with
  | spaces more _ => exact ⟨' ', _, rfl, rfl⟩
  | @word word _ hne hword _ =>
    cases word with
    | nil => exact absurd rfl hne
    | cons c word => exact ⟨c, _, rfl, hword c List.mem_cons_self⟩
  | opening rest => exact ⟨'(', rest, rfl, rfl⟩
  | closing rest => exact ⟨')', rest, rfl, rfl⟩
  | @unexpected c rest hword hends hopen => exact ⟨c, rest, rfl, rfl, hword, hends, hopen⟩

/-- Only a word begins with a character of a word. -/
theorem Token.BeginsWith.isWordChar_eq_false (h : token.BeginsWith c)
    (hother : ∀ word, token ≠ .word word) : Text.isWordChar c = false := by
  cases token with
  | word word => exact absurd rfl (hother word)
  | opening =>
    obtain rfl := h
    rfl
  | closing =>
    obtain rfl := h
    rfl
  | spaces =>
    obtain rfl := h
    rfl
  | unexpected d => exact h.2.1

theorem Lexed.suffix (h : Lexed text token rest) : rest <:+ text := by
  obtain ⟨front, _, rfl⟩ := h.exists_eq_append
  exact List.suffix_append front rest

end Lexing

namespace Cursor

/-- The same line from another text on, where no token has been looked up. -/
def movedTo (c : Cursor) (rest : List Char) : Cursor := ⟨c.line, rest, none⟩

/-- A cursor on a line: what remains is an end of the line, and a token that is kept is the one that
    stands there. -/
structure Sound (line : List Char) (c : Cursor) : Prop where
  line_eq : c.line = line
  suffix : c.remaining <:+ line
  cache : ∀ lexed, c.peeked = some lexed → lex c.remaining = some lexed

/-- What a call can make of a cursor. Asking for the position leaves it as it is, looking at the
    next token fills it, and taking that token moves it on. -/
inductive Moves (c : Cursor) : Cursor → Prop
  | asked : Moves c c
  | filled : Moves c c.filled
  | bumped : Moves c c.bumped

variable {line front rest : List Char} {c d : Cursor} {token : Token}

theorem sound_ofLine (line : List Char) : (ofLine line).Sound line :=
  ⟨rfl, List.suffix_rfl, nofun⟩

theorem remaining_filled (c : Cursor) : c.filled.remaining = c.remaining := by
  unfold filled
  split <;> rfl

theorem movedTo_filled (c : Cursor) (rest : List Char) :
    c.filled.movedTo rest = c.movedTo rest := by
  unfold filled
  split <;> rfl

theorem left_filled (c : Cursor) : c.filled.left = c.left :=
  congrArg byteCount c.remaining_filled

theorem position_filled (c : Cursor) : c.filled.position = c.position := by
  unfold filled
  split <;> rfl

theorem Sound.filled_eq (hc : c.Sound line) : c.filled = ⟨line, c.remaining, lex c.remaining⟩ := by
  obtain ⟨cline, remaining, peeked⟩ := c
  obtain ⟨rfl, _, hcache⟩ := hc
  cases peeked with
  | none => rfl
  | some lexed => exact congrArg (Cursor.mk _ _) (hcache lexed rfl).symm

theorem Sound.filled (hc : c.Sound line) : c.filled.Sound line := by
  rw [hc.filled_eq]
  exact ⟨rfl, hc.suffix, fun lexed => id⟩

theorem Sound.movedTo (hc : c.Sound line) (hrest : rest <:+ c.remaining) :
    (c.movedTo rest).Sound line :=
  ⟨hc.line_eq, hrest.trans hc.suffix, nofun⟩

/-- The next token of a sound cursor is taken, whether it had been looked up or not. -/
theorem Sound.bumped_eq (hc : c.Sound line) (hlex : lex c.remaining = some (token, rest)) :
    c.bumped = c.movedTo rest := by
  have hpeeked : c.filled.peeked = some (token, rest) := by rw [hc.filled_eq, hlex]
  simp only [Cursor.bumped, hpeeked, Cursor.movedTo]

/-- Every call leaves a sound cursor sound, with no more than remained before. -/
theorem Moves.sound (h : c.Moves d) (hc : c.Sound line) :
    d.Sound line ∧ d.remaining <:+ c.remaining := by
  cases h with
  | asked => exact ⟨hc, List.suffix_rfl⟩
  | filled =>
    rw [remaining_filled]
    exact ⟨hc.filled, List.suffix_rfl⟩
  | bumped =>
    cases hlex : lex c.remaining with
    | none =>
      have hbumped : c.bumped = c.movedTo c.remaining := by
        simp only [Cursor.bumped, hc.filled_eq, hlex, Cursor.movedTo]
      rw [hbumped]
      exact ⟨hc.movedTo List.suffix_rfl, List.suffix_rfl⟩
    | some lexed =>
      have hsuffix := (lexed_of_lex hlex).suffix
      rw [hc.bumped_eq hlex]
      exact ⟨hc.movedTo hsuffix, hsuffix⟩

theorem Sound.position_add_left (hc : c.Sound line) : c.position + c.left = byteCount line := by
  obtain ⟨front, hfront⟩ := hc.suffix
  have hbytes := byteCount_append front c.remaining
  rw [hfront] at hbytes
  rw [position, left, hc.line_eq]
  omega

/-- What stands in front of a sound cursor takes as many bytes as its position says. -/
theorem Sound.exists_front (hc : c.Sound line) :
    ∃ front, line = front ++ c.remaining ∧ byteCount front = c.position := by
  obtain ⟨front, rfl⟩ := hc.suffix
  have hposition := hc.position_add_left
  rw [byteCount_append, left, Nat.add_right_cancel_iff] at hposition
  exact ⟨front, rfl, hposition.symm⟩

theorem Sound.position_eq (hc : c.Sound line) (hd : d.Sound line)
    (h : c.remaining = front ++ d.remaining) : d.position = c.position + byteCount front := by
  have hbefore := hc.position_add_left
  have hafter := hd.position_add_left
  rw [left, h, byteCount_append] at hbefore
  rw [left] at hafter
  omega

end Cursor

end Propositional.Formula
