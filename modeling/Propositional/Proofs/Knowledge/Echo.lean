import Propositional.Proofs.Formula.Printing
import Propositional.Proofs.Formula.RoundTrip
import Propositional.Proofs.Knowledge.Monotonicity
import Propositional.Proofs.Text.Lines

namespace Propositional.Knowledge

/-- The line on which a rule is echoed. -/
def echoLine (rule : Formula) : String :=
  String.ofList (' ' :: rule.text.toList)

/-- The echo of some rules has a line for each. -/
theorem lines_renderAll {rules : List Formula} (hrules : ∀ rule ∈ rules, rule.WellSpelled) :
    Text.lines (Formula.renderAll "\n" rules) = rules.map echoLine := by
  rw [← String.ofList_toList (s := Formula.renderAll "\n" rules),
    Formula.toList_renderAll_lineFeed, Text.lines_ofList_flatMap]
  · rw [List.map_map]
    rfl
  · intro piece hpiece
    obtain ⟨rule, hrule, rfl⟩ := List.mem_map.mp hpiece
    intro hc
    have hc : '\n' ∈ rule.text.toList := by simpa using hc
    exact ((hrules rule hrule).ne_terminator hc).2 rfl

variable {rule : Formula} {rules : List Formula}

/-- An echoed line is read back in full as its rule. -/
theorem read_echoLine (hrule : rule.WellSpelled) :
    Formula.read (echoLine rule) = .ok ⟨rule, []⟩ := by
  have hdenotes := hrule.printsBack [] nofun
  rw [List.append_nil] at hdenotes
  rw [Formula.read_eq_ok_iff_lineDenotes, echoLine, String.toList_ofList]
  exact hdenotes.lineDenotes.cons_space

theorem stripTerminators_echoLine (hrule : rule.WellSpelled) :
    Text.stripTerminators (echoLine rule) = echoLine rule := by
  apply Text.stripTerminators_eq_self
  intro c hc
  rw [echoLine, String.toList_ofList, List.mem_cons] at hc
  rcases hc with rfl | hc
  · decide
  · exact hrule.ne_terminator hc

theorem isSkipped_echoLine (rule : Formula) : isSkipped (echoLine rule) = false := by
  have hne : echoLine rule ≠ "" := by
    intro h
    have hempty := congrArg String.toList h
    rw [echoLine, String.toList_ofList] at hempty
    cases hempty
  have hhead : (echoLine rule).toList.head? = some ' ' := by
    rw [echoLine, String.toList_ofList, List.head?_cons]
  rw [isSkipped, hhead, beq_eq_false_iff_ne.mpr hne]
  rfl

/-- No echoed line is taken for a comment or for an empty one. -/
theorem statements_map_echoLine (hrules : ∀ rule ∈ rules, rule.WellSpelled) :
    statements (rules.map echoLine) = rules.map echoLine := by
  have hstrip : (rules.map echoLine).map Text.stripTerminators = rules.map echoLine := by
    rw [List.map_map]
    exact List.map_congr_left fun rule hrule => stripTerminators_echoLine (hrules rule hrule)
  rw [statements, hstrip, List.filter_eq_self]
  intro line hline
  obtain ⟨rule, _, rfl⟩ := List.mem_map.mp hline
  rw [isSkipped_echoLine]
  rfl

/-- An echo loads to its end, leaves nothing over, and brings the rules back. -/
theorem load_renderAll (hrules : ∀ rule ∈ rules, rule.WellSpelled) (k : Knowledge) :
    let loaded := k.load (Formula.renderAll "\n" rules)
    loaded.failure? = none ∧ loaded.trailing = [] ∧
      loaded.knowledge.rules = k.rules ++ rules := by
  have hreadAs : ReadAs (statements (rules.map echoLine)) (rules.map fun rule => ⟨rule, []⟩) := by
    rw [statements_map_echoLine hrules, ReadAs, List.forall₂_map_left_iff,
      List.forall₂_map_right_iff, List.forall₂_same]
    exact fun rule hrule => read_echoLine (hrules rule hrule)
  rw [load, lines_renderAll hrules, loadLines_eq_of_readAs hreadAs]
  refine ⟨rfl, ?_, ?_⟩
  · rw [List.filterMap_map, List.filterMap_eq_nil_iff]
    exact fun rule _ => rfl
  · rw [List.map_map]
    exact congrArg (k.rules ++ ·) rules.map_id

/-- The rules as they are echoed, without the parentheses around them and the word of the
    conjunction. -/
def echo (k : Knowledge) : String :=
  Formula.renderAll "\n" k.rules

theorem render_base (k : Knowledge) : k.base.render "\n" = "(and" ++ k.echo ++ ")" :=
  rfl

variable {texts : List String} {trailing : List TrailingInput} {k : Knowledge}

/-- A rule that was read has a spelling, unless it is the symbol without characters. -/
theorem Gathered.wellSpelled (hk : Gathered texts trailing k) (hrule : rule ∈ k.rules) :
    rule.WellSpelled ∨ rule = .symbol "" := by
  rw [hk.rules_eq, List.mem_flatMap] at hrule
  obtain ⟨text, _, hrule⟩ := hrule
  obtain ⟨line, _, hstated⟩ := List.mem_filterMap.mp hrule
  cases hparse : Formula.parse line with
  | error cause => simp [hparse, Except.toOption] at hstated
  | ok f =>
    obtain rfl : f = rule := by simpa [hparse, Except.toOption] using hstated
    exact Formula.wellSpelled_of_parse hparse

/-- The echo of what was gathered from texts, without its parentheses and the word of the
    conjunction, is itself a text that brings the same rules back in the same order and
    leaves nothing over. It may fix other symbols, but decides the same statements in the
    same way, if nothing was left over on the lines of the first texts either. -/
theorem Gathered.echo_reloads (hk : Gathered texts trailing k) (hnamed : .symbol "" ∉ k.rules) :
    let reloaded := (∅ : Knowledge).load k.echo
    k.base.render "\n" = "(and" ++ k.echo ++ ")" ∧
      reloaded.failure? = none ∧ reloaded.trailing = [] ∧ reloaded.knowledge.rules = k.rules ∧
      (trailing = [] → k.check = .ok () → (∀ rule ∈ k.rules, rule.XorsPaired) →
        ∀ s : Formula, s.check = .ok () → s.XorsPaired →
          ∃ d, k.judge s = .ok d ∧ reloaded.knowledge.judge s = .ok d) := by
  intro reloaded
  have hrules : ∀ rule ∈ k.rules, rule.WellSpelled := by
    intro rule hrule
    refine (hk.wellSpelled hrule).resolve_right ?_
    rintro rfl
    exact hnamed hrule
  obtain ⟨hfailure, hnothing, hreloaded⟩ := load_renderAll hrules ∅
  have hsame : reloaded.knowledge.rules = k.rules := hreloaded
  refine ⟨k.render_base, hfailure, hnothing, hsame, ?_⟩
  intro htrailing hcheck hpaired s hs hspaired
  have hbefore : k.WellSourced := ⟨hk.sourced htrailing, hcheck, hpaired⟩
  have hafter : reloaded.knowledge.WellSourced := by
    refine ⟨.load _ .empty hfailure hnothing, ?_, ?_⟩
    · rwa [check_eq_ok_iff, hsame, ← check_eq_ok_iff]
    · rwa [hsame]
  obtain ⟨d, hd, _⟩ := hbefore.exists_judge_eq_ok hs hspaired
  have hjudge := hafter.judge_eq_of_same_rules hbefore hs hspaired fun f => by rw [hsame]
  exact ⟨d, hd, hjudge.trans hd⟩

/-- A negation in capital letters fixes nothing, but its echo does. -/
theorem Gathered.echo_reloads_fixing :
    let text := "(NOT P)\n\n(xor  P Q)"
    let k := ((∅ : Knowledge).load text).knowledge
    let s := Formula.symbol "Q"
    (Gathered [text] [] k ∧ .symbol "" ∉ k.rules) ∧ k.echo = " (not P)\n (xor P Q)\n" ∧
      ((∅ : Knowledge).load k.echo).knowledge.rules = k.rules ∧
      (k.fixed.get? "P" = none ∧
        ((∅ : Knowledge).load k.echo).knowledge.fixed.get? "P" = some false) ∧
      k.judge s = .ok ⟨true, false⟩ ∧
        ((∅ : Knowledge).load k.echo).knowledge.judge s = .ok ⟨true, false⟩ := by
  intro text k s
  have hk : Gathered [text] [] k := .load_of_nil .empty text (by decide +kernel) (by decide +kernel)
  have hnamed : .symbol "" ∉ k.rules := by decide +kernel
  have hjudge : k.judge s = .ok ⟨true, false⟩ := by decide +kernel
  obtain ⟨_, _, _, hrules, hsame⟩ := hk.echo_reloads hnamed
  obtain ⟨d, hd, hreloaded⟩ := hsame rfl (by decide +kernel) (by decide +kernel) s rfl (by decide)
  obtain rfl := Except.ok.inj (hjudge.symm.trans hd)
  exact ⟨⟨hk, hnamed⟩, by decide +kernel, hrules, ⟨by decide +kernel, by decide +kernel⟩, hjudge,
    hreloaded⟩

end Propositional.Knowledge
