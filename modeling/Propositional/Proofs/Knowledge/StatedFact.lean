import Propositional.Proofs.Formula.Acceptance
import Propositional.Proofs.Formula.Validation
import Propositional.Proofs.Knowledge.Fact

namespace Propositional.Knowledge

/-- A line fixes a symbol to true that it states. -/
def Affirms (r : Reading) (name : String) (value : Bool) : Prop :=
  r.formula = .symbol name ∧ value = true

/-- A line fixes a symbol to false whose negation it states. -/
def Denies (r : Reading) (name : String) (value : Bool) : Prop :=
  r.formula = (Formula.symbol name).negate ∧ value = false

/-- A line that states a symbol ending in `not`, and goes on behind it, is mistaken for a
    negation. -/
def Mistakes (r : Reading) (value : Bool) : Prop :=
  (∃ c, Text.isWordChar c = true ∧ r.formula = .symbol (String.ofList [c, 'n', 'o', 't'])) ∧
    value = false ∧ (∃ d ∈ r.rest, d ≠ ' ') ∧ ∃ t, r.trailing? = some t

variable {line : String} {r : Reading} {name : String} {value : Bool}

/-- A well-formed formula is no symbol without characters. -/
theorem affirms_or_denies_or_mistakes (hread : Formula.read line = .ok r)
    (hcheck : r.formula.check = .ok ()) (hfact : fact? line = some (name, value))
    (hname : Text.isWord name = true) :
    Affirms r name value ∨ Denies r name value ∨ Mistakes r value := by
  rcases formula_eq_literal_or hfact hname hread with
    hliteral | ⟨hvalue, hbehind, hempty | hsymbol⟩
  · cases value with
    | true => exact .inl ⟨hliteral, rfl⟩
    | false => exact .inr (.inl ⟨hliteral, rfl⟩)
  · rw [hempty] at hcheck
    cases hcheck
  · exact .inr (.inr ⟨hsymbol, hvalue, hbehind, Reading.exists_trailing?_eq_some_iff.mpr hbehind⟩)

theorem not_affirms_and_denies : ¬ (Affirms r name value ∧ Denies r name value) := by
  rintro ⟨⟨_, htrue⟩, _, hfalse⟩
  cases htrue.symm.trans hfalse

theorem not_affirms_and_mistakes : ¬ (Affirms r name value ∧ Mistakes r value) := by
  rintro ⟨⟨_, htrue⟩, _, hfalse, _⟩
  cases htrue.symm.trans hfalse

theorem not_denies_and_mistakes : ¬ (Denies r name value ∧ Mistakes r value) := by
  rintro ⟨⟨hnegate, _⟩, ⟨c, _, hsymbol⟩, _⟩
  cases hnegate.symm.trans hsymbol

/-- A line that holds a symbol and nothing else fixes it. -/
theorem fact?_of_symbol (hread : Formula.read line = .ok r) (hformula : r.formula = .symbol name)
    (hname : Text.isWord name = true) (htrailing : r.trailing? = none) :
    fact? line = some (name, true) := by
  have hspaces := Reading.trailing?_eq_none_iff.mp htrailing
  have hrest : ∀ c ∈ r.rest, Text.isBlank c = true := fun c hc => by rw [hspaces c hc]; rfl
  rw [Formula.read_eq_ok_iff_lineDenotes, hformula] at hread
  obtain ⟨spaces, text, hline, hdenotes | ⟨_, _, hempty⟩⟩ := hread
  · have hlead : ∀ c ∈ List.replicate spaces ' ', Text.isBlank c = true :=
      fun c hc => by rw [List.eq_of_mem_replicate hc]; rfl
    have hbehind : Text.runs r.rest = [] := by
      simpa using Text.runs_append_of_isBlank hrest []
    have hword := hname
    rw [← name.ofList_toList, Text.isWord_ofList_iff] at hword
    have hruns : Text.runs line.toList = [name.toList] := by
      rw [hline, hdenotes.eq_append_of_symbol.1, Text.runs_append_of_isBlank hlead,
        Text.runs_append hword.1 (fun c hc => Text.isBlank_of_isWordChar (hword.2 c hc))
          (fun c hc => hrest c (List.mem_of_mem_head? hc)), hbehind]
    rw [fact?, Text.tokens_eq_map_runs, hruns, List.map_singleton, String.ofList_toList]
  · cases hempty
    cases hname

/-- A well-formed formula of a line is compared with what the line fixes for a word: either the
    line states the symbol, or it states its negation, or it states a symbol that ends in `not` and
    goes on behind it. If it is read in full, then what it fixes is what it states, and it fixes
    the symbol that it states. -/
theorem fact_affirmed_denied_or_mistaken (hread : Formula.read line = .ok r)
    (hcheck : r.formula.check = .ok ()) :
    (∀ name value, fact? line = some (name, value) → Text.isWord name = true →
      (Affirms r name value ∨ Denies r name value ∨ Mistakes r value) ∧
      ¬ (Affirms r name value ∧ Denies r name value) ∧
      ¬ (Affirms r name value ∧ Mistakes r value) ∧
      ¬ (Denies r name value ∧ Mistakes r value)) ∧
    (r.trailing? = none →
      (∀ name value, fact? line = some (name, value) → Text.isWord name = true →
        r.formula = .literal name value) ∧
      ∀ name, r.formula = .symbol name → fact? line = some (name, true)) := by
  refine ⟨fun name value hfact hname => ?_, fun htrailing => ⟨?_, ?_⟩⟩
  · exact ⟨affirms_or_denies_or_mistakes hread hcheck hfact hname, not_affirms_and_denies,
      not_affirms_and_mistakes, not_denies_and_mistakes⟩
  · exact fun name value hfact hname => formula_eq_literal hfact hname hread htrailing
  · intro name hformula
    have hname : Text.isWord name = true :=
      Formula.isWord_of_check hcheck (hformula ▸ Formula.mem_subformulas_symbol.mpr rfl)
    exact fact?_of_symbol hread hformula hname htrailing

/-- The first line states nothing about the symbol that it fixes; the second one fixes what it
    states. -/
theorem fact_affirmed_denied_or_mistaken_not :
    let mistaken : Reading := ⟨.symbol "xnot", " PQ".toList⟩
    let affirmed : Reading := ⟨.symbol "Q_1", "  ".toList⟩
    (Formula.read "xnot PQ" = .ok mistaken ∧ mistaken.formula.check = .ok () ∧
      fact? "xnot PQ" = some ("P", false) ∧ Text.isWord "P" = true ∧
      ¬ Affirms mistaken "P" false ∧ ¬ Denies mistaken "P" false ∧ Mistakes mistaken false) ∧
    Formula.read " Q_1  " = .ok affirmed ∧ affirmed.formula.check = .ok () ∧
      affirmed.trailing? = none ∧ fact? " Q_1  " = some ("Q_1", true) := by
  intro mistaken affirmed
  have hmistaken : Formula.read "xnot PQ" = .ok mistaken :=
    Formula.read_eq_ok_iff.mpr (by decide +kernel)
  have haffirmed : Formula.read " Q_1  " = .ok affirmed :=
    Formula.read_eq_ok_iff.mpr (by decide +kernel)
  have hfact : fact? "xnot PQ" = some ("P", false) := by decide +kernel
  have hmistakes : Mistakes mistaken false :=
    ⟨⟨'x', rfl, rfl⟩, rfl, ⟨'P', by decide, by decide⟩, _, rfl⟩
  obtain ⟨_, _, hnotAffirms, hnotDenies⟩ :=
    (fact_affirmed_denied_or_mistaken hmistaken (by decide +kernel)).1 "P" false hfact rfl
  have hstated := (fact_affirmed_denied_or_mistaken haffirmed (by decide +kernel)).2 rfl
  exact ⟨⟨hmistaken, by decide +kernel, hfact, rfl, fun h => hnotAffirms ⟨h, hmistakes⟩,
    fun h => hnotDenies ⟨h, hmistakes⟩, hmistakes⟩, haffirmed, by decide +kernel, rfl,
    hstated.2 "Q_1" rfl⟩

end Propositional.Knowledge
