import Propositional.Proofs.Knowledge.Models

namespace Propositional

namespace Formula

/-- What well-formedness asks of a formula itself, whatever its operands are: a symbol is a word, a
    connective is one of the six, and negation, implication and equivalence have one, two and two
    operands. -/
def IsSound : Formula → Prop
  | symbol name => name ≠ "" ∧ ∀ c ∈ name.toList, Text.isWordChar c = true
  | apply (.unknown _) _ => False
  | apply .neg operands => operands.length = 1
  | apply .imp operands => operands.length = 2
  | apply .iff operands => operands.length = 2
  | apply _ _ => True

/-- The error that a formula deserves for what it is itself. A connective is unknown even if the
    word kept for it spells one of the six. -/
inductive Offends : Formula → ValidationError → Prop
  | symbol {name : String} (h : ¬ (symbol name).IsSound) : Offends (symbol name) (.invalidSymbol name)
  | unknown (word : String) (operands : List Formula) :
      Offends (apply (.unknown word) operands) (.unknownConnective word)
  | neg {operands : List Formula} (h : operands.length ≠ 1) :
      Offends (apply .neg operands) (.arity .neg 1 operands.length)
  | imp {operands : List Formula} (h : operands.length ≠ 2) :
      Offends (apply .imp operands) (.arity .imp 2 operands.length)
  | iff {operands : List Formula} (h : operands.length ≠ 2) :
      Offends (apply .iff operands) (.arity .iff 2 operands.length)

theorem isSound_symbol_iff {name : String} :
    (symbol name).IsSound ↔ Text.isWord name = true := by
  simp [IsSound, Text.isWord]

theorem offence?_eq_some_iff {f : Formula} {e : ValidationError} :
    f.offence? = some e ↔ Offends f e := by
  constructor
  · intro h
    cases f with
    | symbol name =>
      rw [offence?] at h
      split at h
      · cases h
      · rename_i hname
        obtain rfl := Option.some.inj h
        exact .symbol (isSound_symbol_iff.not.mpr hname)
    | apply c operands =>
      cases c with
      | unknown word =>
        obtain rfl := Option.some.inj h
        exact .unknown word operands
      | neg | imp | iff =>
        simp only [offence?, Connective.arity?] at h
        split at h
        · cases h
        · rename_i hlength
          obtain rfl := Option.some.inj h
          constructor
          exact hlength
      | conj | disj | xor => cases h
  · intro h
    cases h with
    | symbol hname => rw [offence?, if_neg (isSound_symbol_iff.not.mp hname)]
    | unknown word operands => rfl
    | neg hlength | imp hlength | iff hlength =>
      simp only [offence?, Connective.arity?, if_neg hlength]

theorem offence?_eq_none_iff {f : Formula} : f.offence? = none ↔ f.IsSound := by
  cases f with
  | symbol name => simp [offence?, isSound_symbol_iff]
  | apply c operands => cases c <;> simp [offence?, Connective.arity?, IsSound]

instance : DecidablePred IsSound :=
  fun _ => decidable_of_iff _ offence?_eq_none_iff

theorem checkAll_cons_eq_error_iff {f : Formula} {fs : List Formula} {e : ValidationError} :
    checkAll (f :: fs) = .error e ↔
      f.check = .error e ∨ f.check = .ok () ∧ checkAll fs = .error e := by
  rw [checkAll, bind_eq_error_iff]
  refine or_congr_right ⟨?_, ?_⟩
  · rintro ⟨_, hf, hfs⟩
    exact ⟨hf, hfs⟩
  · rintro ⟨hf, hfs⟩
    exact ⟨(), hf, hfs⟩

/-- Of several formulas the first that is not well formed by itself is reported. -/
theorem checkAll_eq_error_iff {fs : List Formula} {e : ValidationError} :
    checkAll fs = .error e ↔ ∃ before f after, fs = before ++ f :: after ∧
      (∀ g ∈ before, g.check = .ok ()) ∧ f.check = .error e := by
  induction fs with
  | nil => simp [checkAll]
  | cons f fs ih =>
    rw [checkAll_cons_eq_error_iff, ih]
    constructor
    · rintro (hf | ⟨hf, before, g, after, rfl, hbefore, hg⟩)
      · exact ⟨[], f, fs, rfl, List.forall_mem_nil _, hf⟩
      · exact ⟨f :: before, g, after, rfl, List.forall_mem_cons.mpr ⟨hf, hbefore⟩, hg⟩
    · rintro ⟨before, g, after, hsplit, hbefore, hg⟩
      cases before with
      | nil =>
        obtain ⟨rfl, rfl⟩ := List.cons.inj hsplit
        exact .inl hg
      | cons first before =>
        obtain ⟨rfl, rfl⟩ := List.cons.inj hsplit
        obtain ⟨hfirst, hbefore⟩ := List.forall_mem_cons.mp hbefore
        exact .inr ⟨hfirst, before, g, after, rfl, hbefore, hg⟩

theorem check_all_eq_error_iff {fs : List Formula} {e : ValidationError} :
    (all fs).check = .error e ↔ ∃ before f after, fs = before ++ f :: after ∧
      (∀ g ∈ before, g.check = .ok ()) ∧ f.check = .error e :=
  checkAll_eq_error_iff

theorem check_eq_ok_iff_isSound {f : Formula} :
    f.check = .ok () ↔ ∀ g ∈ f.subformulas, g.IsSound := by
  simp only [check_eq_ok_iff, offence?_eq_none_iff]

/-- The subformulas are visited in their order, an application before its operands, up to the first
    that offends. -/
theorem check_eq_error_iff_offends {f : Formula} {e : ValidationError} :
    f.check = .error e ↔ ∃ before g after, f.subformulas = before ++ g :: after ∧
      (∀ h ∈ before, h.IsSound) ∧ Offends g e := by
  simp only [check_eq_error_iff, List.findSome?_eq_some_iff, offence?_eq_some_iff,
    offence?_eq_none_iff, and_comm (a := Offends _ _)]

end Formula

namespace Knowledge

/-- A formula is accepted if each of its subformulas is sound in itself. Otherwise the error is that
    of the first one that is not, in the order in which an application comes before its operands and
    these from left to right. So of the rules of some knowledge the first one is reported that would
    not be accepted alone, and with the error that it has alone. -/
theorem validation_reports_first_offence :
    (∀ f : Formula,
      (f.check = .ok () ↔ ∀ g ∈ f.subformulas, g.IsSound) ∧
      ∀ e, f.check = .error e ↔ ∃ before g after, f.subformulas = before ++ g :: after ∧
        (∀ h ∈ before, h.IsSound) ∧ g.Offends e) ∧
    ∀ k : Knowledge,
      (k.check = .ok () ↔ ∀ rule ∈ k.rules, rule.check = .ok ()) ∧
      ∀ e, k.check = .error e ↔ ∃ before rule after cause, k.rules = before ++ rule :: after ∧
        (∀ other ∈ before, other.check = .ok ()) ∧ rule.check = .error cause ∧
          e = .invalidKnowledgeBase cause := by
  refine ⟨fun f => ⟨Formula.check_eq_ok_iff_isSound, fun e => Formula.check_eq_error_iff_offends⟩,
    fun k => ⟨check_eq_ok_iff, fun e => ?_⟩⟩
  rw [check, mapError_eq_error_iff, base]
  simp only [Formula.check_all_eq_error_iff]
  constructor
  · rintro ⟨cause, ⟨before, rule, after, hsplit, hbefore, hrule⟩, rfl⟩
    exact ⟨before, rule, after, cause, hsplit, hbefore, hrule, rfl⟩
  · rintro ⟨before, rule, after, cause, hsplit, hbefore, hrule, rfl⟩
    exact ⟨cause, ⟨before, rule, after, hsplit, hbefore, hrule⟩, rfl⟩

/-- A fault deep inside an operand comes before those of the operands behind it, and a word that
    spells a connective does not make it one. Of the rules the second is reported. -/
theorem validation_reports_first_offence_nested :
    let denial : Formula := .apply .neg [.symbol "Q", .symbol "R"]
    let spelled : Formula := .apply (.unknown "and") [.symbol "P"]
    let f : Formula := .apply .conj [.apply .imp [.symbol "P", denial], spelled, .symbol "S-T"]
    let k : Knowledge := ⟨[.symbol "P", spelled, denial], ∅⟩
    f.IsSound ∧ ¬ denial.IsSound ∧ f.check = .error (.arity .neg 1 2) ∧
      spelled.check = .error (.unknownConnective "and") ∧
      k.check = .error (.invalidKnowledgeBase (.unknownConnective "and")) := by
  intro denial spelled f k
  obtain ⟨hformulas, hknowledge⟩ := validation_reports_first_offence
  have hdenial : denial.Offends (.arity .neg 1 2) := .neg (by decide)
  have hf : f.check = .error (.arity .neg 1 2) :=
    ((hformulas f).2 _).mpr ⟨[f, .apply .imp [.symbol "P", denial], .symbol "P"], denial, _, rfl,
      by decide, hdenial⟩
  have hspelled : spelled.check = .error (.unknownConnective "and") :=
    ((hformulas spelled).2 _).mpr ⟨[], spelled, _, rfl, nofun, .unknown "and" _⟩
  exact ⟨by decide, by decide, hf, hspelled,
    ((hknowledge k).2 _).mpr ⟨[.symbol "P"], spelled, _, _, rfl, by decide, hspelled, rfl⟩⟩

end Knowledge

end Propositional
