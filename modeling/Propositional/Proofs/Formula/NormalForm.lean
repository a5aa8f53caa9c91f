import Propositional.Proofs.Formula.RoundTrip

namespace Propositional.Formula

variable {line other : String} {f g : Formula}

theorem wellSpelled_iff :
    f.WellSpelled ↔
      (∀ name, symbol name ∈ f.subformulas → Text.isWord name = true) ∧
      ∀ word operands, apply (.unknown word) operands ∈ f.subformulas →
        (∀ c ∈ word.toList, Text.isWordChar c = true) ∧ Connective.ofWord word = .unknown word := by
  constructor
  · intro hf
    exact ⟨fun name hname => hf _ hname,
      fun word operands hword => isSpelled_apply_iff.mp (hf _ hword)⟩
  · rintro ⟨hsymbols, hunknown⟩ g hg
    cases g with
    | symbol name => exact hsymbols name hg
    | apply c operands =>
      cases c with
      | unknown word => exact isSpelled_apply_iff.mpr (hunknown word operands hg)
      | _ => rfl

theorem not_wellSpelled_empty : ¬ (symbol "").WellSpelled := by
  rw [wellSpelled_symbol_iff]
  exact Bool.noConfusion

/-- The symbol without characters is read exactly where nothing but spaces stands in front of a
    closing parenthesis. -/
theorem parse_eq_ok_symbol_empty_iff :
    parse line = .ok (symbol "") ↔ line.toList.find? (· != ' ') = some ')' := by
  rw [parse_eq_ok_iff, List.find?_eq_some_iff_append]
  constructor
  · rintro ⟨rest, spaces, text, hline, hdenotes | ⟨rfl, hhead, _⟩⟩
    · exact absurd hdenotes.wellSpelled not_wellSpelled_empty
    · cases rest with
      | nil => cases hhead
      | cons c rest =>
        obtain rfl := Option.some.inj hhead
        exact ⟨rfl, _, rest, hline, fun c hc => by simp [List.eq_of_mem_replicate hc]⟩
  · rintro ⟨_, spaces, rest, hline, hspaces⟩
    have hlead : ∀ c ∈ spaces, c = ' ' := fun c hc => by simpa using hspaces c hc
    rw [hline, List.eq_replicate_of_mem hlead]
    exact ⟨_, (lineDenotes_close rest).replicate_append _⟩

/-- A printed formula reads back to its end. -/
theorem WellSpelled.read_render (hf : f.WellSpelled) : read (f.render "") = .ok ⟨f, []⟩ := by
  have hdenotes : Denotes ((f.render "").toList ++ []) f [] := hf.denotes_render nofun (.inr nofun)
  rw [List.append_nil] at hdenotes
  exact read_eq_ok_iff_lineDenotes.mpr hdenotes.lineDenotes

theorem WellSpelled.parse_render (hf : f.WellSpelled) : parse (f.render "") = .ok f := by
  rw [parse, hf.read_render]
  rfl

theorem WellSpelled.render_ne_empty (hf : f.WellSpelled) : f.render "" ≠ "" := by
  intro h
  have hparse := hf.parse_render
  rw [h] at hparse
  cases hparse

/-- Of the formulas that can be read, no two are printed alike. -/
theorem eq_of_render_eq (hf : parse line = .ok f) (hg : parse other = .ok g)
    (h : f.render "" = g.render "") : f = g := by
  rcases wellSpelled_of_parse hf with hf | rfl <;> rcases wellSpelled_of_parse hg with hg | rfl
  · have hparse := hf.parse_render
    rw [h, hg.parse_render] at hparse
    exact (Except.ok.inj hparse).symm
  · exact absurd h hf.render_ne_empty
  · exact absurd h.symm hg.render_ne_empty
  · rfl

/-- Of the formulas that can be read only the symbol without characters is refused for a symbol. -/
theorem eq_symbol_empty_of_check (hf : parse line = .ok f) {name : String}
    (hcheck : f.check = .error (.invalidSymbol name)) : name = "" ∧ f = symbol "" := by
  obtain ⟨g, hg, hoffence⟩ := List.exists_of_findSome?_eq_some (check_eq_error_iff.mp hcheck)
  obtain ⟨rfl, hname⟩ := eq_symbol_of_offence? hoffence
  rcases wellSpelled_of_parse hf with hf | rfl
  · exact absurd (hf _ hg) hname
  · exact ⟨symbol.inj (mem_subformulas_symbol.mp hg), rfl⟩

/-- The formulas that can be read: the symbol without characters, of which a closing parenthesis is
    enough, and formulas that have a spelling throughout. These read back from what they are printed
    as, which therefore stands for all lines that give the same formula. -/
theorem parse_normal_form (line : String) :
    (parse line = .ok (symbol "") ↔ line.toList.find? (· != ' ') = some ')') ∧
    ∀ f, parse line = .ok f →
      (f = symbol "" ∨
        (∀ name, symbol name ∈ f.subformulas → Text.isWord name = true) ∧
        (∀ word operands, apply (.unknown word) operands ∈ f.subformulas →
          (∀ c ∈ word.toList, Text.isWordChar c = true) ∧
            Connective.ofWord word = .unknown word) ∧
        parse (f.render "") = .ok f ∧
        ∃ r, read (f.render "") = .ok r ∧ r.formula = f ∧ r.trailing? = none) ∧
      (∀ name, f.check = .error (.invalidSymbol name) → name = "" ∧ f = symbol "") ∧
      ∀ other g, parse other = .ok g → g.render "" = f.render "" → g = f := by
  refine ⟨parse_eq_ok_symbol_empty_iff, fun f hf => ⟨?_, ?_, ?_⟩⟩
  · refine (wellSpelled_of_parse hf).symm.imp_right fun hspelled => ?_
    obtain ⟨hsymbols, hunknown⟩ := wellSpelled_iff.mp hspelled
    exact ⟨hsymbols, hunknown, hspelled.parse_render, ⟨f, []⟩, hspelled.read_render, rfl, rfl⟩
  · exact fun name => eq_symbol_empty_of_check hf
  · exact fun other g hg => eq_of_render_eq hg hf

/-- Capital letters and spaces of a line are lost in print, a word that names no connective is
    not. -/
theorem parse_normal_form_unknown :
    let line := " (IF (Nor P)( Q)) )"
    let other := "(if  (Nor P ) ( Q))x"
    let f := apply .imp [apply (.unknown "Nor") [symbol "P"], apply (.unknown "") [symbol "Q"]]
    parse line = .ok f ∧ f.render "" = "(if (Nor P) ( Q))" ∧ parse (f.render "") = .ok f ∧
      (∀ g, parse other = .ok g → g.render "" = f.render "" → g = f) ∧
      parse " )P" = .ok (symbol "") := by
  intro line other f
  have hf : parse line = .ok f := by decide +kernel
  obtain ⟨hprints, _, hsame⟩ := (parse_normal_form line).2 f hf
  obtain ⟨_, _, hparse, _⟩ := hprints.resolve_left nofun
  exact ⟨hf, by decide +kernel, hparse, hsame other, (parse_normal_form " )P").1.mpr (by decide)⟩

end Propositional.Formula
