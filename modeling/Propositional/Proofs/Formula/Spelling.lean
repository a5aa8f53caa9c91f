import Propositional.Proofs.Formula.Grammar
import Propositional.Proofs.Formula.Validation

namespace Propositional

/-- A word that names no connective is kept as it is. -/
theorem Connective.eq_of_ofWord_eq_unknown {word kept : String} (h : ofWord word = unknown kept) :
    kept = word := by
  unfold ofWord at h
  split at h <;> cases h
  rfl

namespace Formula

/-- A symbol is spelled by a word with characters. So is an application by the word
    of its connective, which may also have none, but may not name another
    connective. -/
def isSpelled : Formula → Bool
  | symbol name => Text.isWord name
  | apply (.unknown word) _ =>
    word.toList.all Text.isWordChar && Connective.ofWord word == .unknown word
  | apply _ _ => true

/-- Every symbol and every connective of a formula has a spelling. The number of
    operands does not matter. -/
def WellSpelled (f : Formula) : Prop :=
  ∀ g ∈ f.subformulas, g.isSpelled = true

instance (f : Formula) : Decidable f.WellSpelled :=
  inferInstanceAs (Decidable (∀ g ∈ f.subformulas, g.isSpelled = true))

theorem wellSpelled_symbol_iff {name : String} :
    (symbol name).WellSpelled ↔ Text.isWord name = true := by
  simp [WellSpelled, isSpelled]

theorem wellSpelled_apply_iff {c : Connective} {operands : List Formula} :
    (apply c operands).WellSpelled ↔
      (apply c operands).isSpelled = true ∧ ∀ f ∈ operands, f.WellSpelled :=
  forall_mem_subformulas_apply_iff

theorem isSpelled_apply_iff {c : Connective} {operands : List Formula} :
    (apply c operands).isSpelled = true ↔
      (∀ d ∈ c.name.toList, Text.isWordChar d = true) ∧ Connective.ofWord c.name = c := by
  cases c with
  | unknown word => simp [isSpelled, Connective.name]
  | _ => exact ⟨fun _ => ⟨List.all_eq_true.mp (by decide), rfl⟩, fun _ => rfl⟩

/-- What passes the check has a spelling. -/
theorem wellSpelled_of_check {f : Formula} (hf : f.check = .ok ()) : f.WellSpelled := by
  intro g hg
  have hright := check_eq_ok_of_mem hf hg
  cases g with
  | symbol name => exact isWord_of_check hf hg
  | apply c operands =>
    cases c with
    | unknown word => cases hright
    | _ => rfl

theorem isSpelled_apply_ofWord {word : List Char} (hword : ∀ d ∈ word, Text.isWordChar d = true)
    (operands : List Formula) :
    (apply (.ofWord (String.ofList word)) operands).isSpelled = true := by
  cases hc : Connective.ofWord (String.ofList word) with
  | unknown kept =>
    obtain rfl := Connective.eq_of_ofWord_eq_unknown hc
    exact isSpelled_apply_iff.mpr ⟨by simpa [Connective.name] using hword, hc⟩
  | _ => rfl

mutual

/-- Whatever a text denotes has a spelling. -/
theorem Denotes.wellSpelled {text rest : List Char} {f : Formula} :
    Denotes text f rest → f.WellSpelled
  | .symbol hne hword _ => wellSpelled_symbol_iff.mpr (Text.isWord_ofList_iff.mpr ⟨hne, hword⟩)
  | .apply hword _ hoperands =>
    wellSpelled_apply_iff.mpr ⟨isSpelled_apply_ofWord hword _, hoperands.wellSpelled⟩

theorem DenotesAll.wellSpelled {text rest : List Char} {fs : List Formula} :
    DenotesAll text fs rest → ∀ f ∈ fs, f.WellSpelled
  | .close _ _ => nofun
  | .operand _ hf hfs => List.forall_mem_cons.mpr ⟨hf.wellSpelled, hfs.wellSpelled⟩

end

/-- A line never reads back as a formula without a spelling, unless that is the
    symbol without characters. -/
theorem LineDenotes.wellSpelled {line rest : List Char} {f : Formula} (h : LineDenotes line f rest) :
    f.WellSpelled ∨ f = symbol "" ∧ ')' ∈ line := by
  obtain ⟨spaces, text, rfl, hdenotes | ⟨rfl, hhead, rfl⟩⟩ := h
  · exact .inl hdenotes.wellSpelled
  · have hclose : ')' ∈ rest := List.mem_of_mem_head? hhead
    exact .inr ⟨rfl, by simp [hclose]⟩

end Formula

end Propositional
