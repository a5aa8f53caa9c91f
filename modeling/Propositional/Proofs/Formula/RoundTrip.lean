import Propositional.Formula.Printer
import Propositional.Proofs.Formula.Acceptance
import Propositional.Proofs.Formula.Spelling

namespace Propositional.Formula

open Reader

variable {separator : String} {c : Connective} {operands fs : List Formula}
  {rest : List Char} {f : Formula}

/-- A text that denotes its formula wherever a word may end behind it. -/
def PrintsBack (f : Formula) : Prop :=
  ∀ rest : List Char, (∀ d ∈ rest.head?, EndsWord d) → Denotes (f.text.toList ++ rest) f rest

/-- Behind the word of a connective, and behind an operand with its separator, a
    word may end. -/
theorem exists_endsWord_renderAll (separator : String) (count : Nat) (fs : List Formula)
    (rest : List Char) :
    ∃ d ∈ (List.replicate count ' ' ++ ((renderAll separator fs).toList ++ ')' :: rest)).head?,
      EndsWord d := by
  cases count with
  | zero =>
    cases fs with
    | nil => exact ⟨')', by simp [renderAll], .inr rfl⟩
    | cons f fs => exact ⟨' ', by simp [renderAll], .inl rfl⟩
  | succ count => exact ⟨' ', rfl, .inl rfl⟩

/-- Printed operands denote these operands, also with spaces as separators. -/
theorem denotesAll_renderAll (hseparator : ∀ d ∈ separator.toList, d = ' ')
    (hfs : ∀ f ∈ fs, f.PrintsBack) (rest : List Char) :
    DenotesAll ((renderAll separator fs).toList ++ ')' :: rest) fs rest := by
  have hspaces := List.eq_replicate_of_mem hseparator
  -- An operand has its separator behind it, which the grammar has in front of the next one.
  generalize separator.toList.length = count at hspaces
  induction fs with
  | nil => simpa [renderAll] using DenotesAll.close 0 rest
  | cons f fs ih =>
    have hothers := (ih fun g hg => hfs g (by simp [hg])).replicate_append count
    obtain ⟨d, hd, hends⟩ := exists_endsWord_renderAll separator count fs rest
    have hfirst := hfs f (by simp) _ fun e he => by
      obtain rfl := Option.some.inj (hd.symm.trans he)
      exact hends
    have htext : (renderAll separator (f :: fs)).toList ++ ')' :: rest =
        ' ' :: (f.text.toList ++ (List.replicate count ' ' ++
          ((renderAll separator fs).toList ++ ')' :: rest))) := by
      simp [renderAll, hspaces]
    rw [htext]
    exact (DenotesAll.operand 0 hfirst hothers).cons_space

/-- A printed application denotes it, whatever stands behind. -/
theorem denotes_render_apply (hseparator : ∀ d ∈ separator.toList, d = ' ')
    (hc : (apply c operands).isSpelled = true) (hoperands : ∀ f ∈ operands, f.PrintsBack)
    (rest : List Char) :
    Denotes (((apply c operands).render separator).toList ++ rest) (apply c operands) rest := by
  obtain ⟨hword, hname⟩ := isSpelled_apply_iff.mp hc
  have hends : ∃ d ∈ ((renderAll separator operands).toList ++ ')' :: rest).head?, EndsWord d :=
    exists_endsWord_renderAll separator 0 operands rest
  have happly := Denotes.apply hword hends (denotesAll_renderAll hseparator hoperands rest)
  rw [String.ofList_toList, hname] at happly
  have htext : ((apply c operands).render separator).toList ++ rest =
      '(' :: (c.name.toList ++ ((renderAll separator operands).toList ++ ')' :: rest)) := by
    simp [render]
  rw [htext]
  exact happly

theorem denotes_symbol {name : String} (hname : Text.isWord name = true)
    (hrest : ∀ d ∈ rest.head?, EndsWord d) :
    Denotes (name.toList ++ rest) (symbol name) rest := by
  have hword := hname
  rw [← name.ofList_toList, Text.isWord_ofList_iff] at hword
  have hsymbol := Denotes.symbol hword.1 hword.2 hrest
  rwa [String.ofList_toList] at hsymbol

theorem WellSpelled.printsBack (hf : f.WellSpelled) : f.PrintsBack := by
  induction f with
  | symbol name =>
    intro rest hrest
    rw [text]
    exact denotes_symbol (wellSpelled_symbol_iff.mp hf) hrest
  | apply c operands ih =>
    obtain ⟨hc, hoperands⟩ := wellSpelled_apply_iff.mp hf
    intro rest _
    rw [← render_empty]
    exact denotes_render_apply (by simp) hc (fun g hg => ih g hg (hoperands g hg)) rest

/-- A printed formula denotes it in front of any rest, unless it is a symbol and the
    rest would go on with its word or cannot follow one. -/
theorem WellSpelled.denotes_render (hf : f.WellSpelled)
    (hseparator : ∀ d ∈ separator.toList, d = ' ')
    (hrest : (∃ c operands, f = apply c operands) ∨ ∀ d ∈ rest.head?, EndsWord d) :
    Denotes ((f.render separator).toList ++ rest) f rest := by
  cases f with
  | symbol name =>
    have hends := hrest.resolve_left nofun
    rw [render]
    exact denotes_symbol (wellSpelled_symbol_iff.mp hf) hends
  | apply c operands =>
    obtain ⟨hc, hoperands⟩ := wellSpelled_apply_iff.mp hf
    exact denotes_render_apply hseparator hc (fun g hg => (hoperands g hg).printsBack) rest

/-- A formula that was read has a spelling, unless it is the symbol without characters. -/
theorem wellSpelled_of_parse {line : String} (h : parse line = .ok f) :
    f.WellSpelled ∨ f = symbol "" := by
  obtain ⟨rest, hline⟩ := parse_eq_ok_iff.mp h
  exact hline.wellSpelled.imp_right And.left

/-- What is printed reads back exactly where the formula has a spelling. Spaces in
    front of it, separators of spaces and what stands behind it make no difference,
    as long as a symbol ends where its word does; what stands behind is left over.
    The number of operands is of no account. -/
theorem render_reads_back_iff_wellSpelled (f : Formula) :
    (f.check = .ok () → f.WellSpelled) ∧
    (f.WellSpelled → ∀ lead separator behind : String, (∀ d ∈ lead.toList, d = ' ') →
      (∀ d ∈ separator.toList, d = ' ') →
      ((∃ c operands, f = apply c operands) ∨ behind = "" ∨ behind.toList.head? = some ' ' ∨
        behind.toList.head? = some ')') →
      parse (lead ++ f.render separator ++ behind) = .ok f ∧
      ∃ r, read (lead ++ f.render separator ++ behind) = .ok r ∧ r.formula = f ∧
        r.rest = behind.toList ∧ (r.trailing? = none ↔ ∀ d ∈ behind.toList, d = ' ')) ∧
    (¬ f.WellSpelled → parse (f.render "") ≠ .ok f) := by
  refine ⟨wellSpelled_of_check, ?_, ?_⟩
  · intro hf lead separator behind hlead hseparator hbehind
    have hends : (∃ c operands, f = apply c operands) ∨
        ∀ d ∈ behind.toList.head?, EndsWord d := by
      refine hbehind.imp_right ?_
      rintro (rfl | hhead | hhead) d hd
      · cases hd
      · exact .inl (Option.some.inj (hd.symm.trans hhead))
      · exact .inr (Option.some.inj (hd.symm.trans hhead))
    have hline : LineDenotes (lead ++ f.render separator ++ behind).toList f behind.toList := by
      rw [String.toList_append, String.toList_append, List.eq_replicate_of_mem hlead,
        List.append_assoc]
      exact (hf.denotes_render hseparator hends).lineDenotes.replicate_append _
    exact ⟨parse_eq_ok_iff.mpr ⟨_, hline⟩, ⟨f, behind.toList⟩,
      read_eq_ok_iff_lineDenotes.mpr hline, rfl, rfl, Reading.trailing?_eq_none_iff⟩
  · intro hf hparse
    obtain ⟨rest, hline⟩ := parse_eq_ok_iff.mp hparse
    obtain ⟨rfl, hclose⟩ := hline.wellSpelled.resolve_left hf
    cases hclose

/-- Without a word, and in whatever letters a word is written, a connective reads
    back if the word names no other one. -/
theorem render_reads_back_iff_wellSpelled_unknown :
    let f := Formula.apply (.unknown "") [symbol "P", apply (.unknown "nand") [], symbol "Q_1"]
    let g := (Formula.apply (.unknown "AND") [symbol "P"]).negate
    f.WellSpelled ∧ parse ("  " ++ f.render " " ++ ")x") = .ok f ∧
      ¬ g.WellSpelled ∧ parse (g.render "") ≠ .ok g := by
  intro f g
  have hf : f.WellSpelled := by decide +kernel
  have hg : ¬ g.WellSpelled := by decide +kernel
  have hreads := (render_reads_back_iff_wellSpelled f).2.1 hf "  " " " ")x" (by simp) (by simp)
    (.inl ⟨_, _, rfl⟩)
  exact ⟨hf, hreads.1, hg, (render_reads_back_iff_wellSpelled g).2.2 hg⟩

end Propositional.Formula
