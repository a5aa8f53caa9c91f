import Propositional.Proofs.Knowledge.Loading

namespace Propositional.Knowledge

/-- Knowledge from sources that were read in full and state well-formed rules. -/
structure WellSourced (k : Knowledge) : Prop where
  sourced : k.Sourced
  check : k.check = .ok ()
  paired : ∀ rule ∈ k.rules, rule.XorsPaired

variable {k l : Knowledge} {s : Formula} {d e : Decision}

/-- Such knowledge decides a statement by what its rules imply. What is fixed adds nothing. -/
theorem WellSourced.exists_judge_eq_ok (hk : k.WellSourced) (hs : s.check = .ok ())
    (hspaired : s.XorsPaired) :
    ∃ d, k.judge s = .ok d ∧
      (d.holds = true ↔ ∀ v, (∀ rule ∈ k.rules, rule.truth v = true) → s.truth v = true) ∧
      (d.fails = true ↔ ∀ v, (∀ rule ∈ k.rules, rule.truth v = true) → s.truth v = false) := by
  obtain ⟨d, hd, hholds, hfails⟩ := Knowledge.exists_judge_eq_ok hk.check hk.paired hs hspaired
  have himplies : ∀ value, (∀ v, k.IsModel v → s.truth v = value) ↔
      ∀ v, (∀ rule ∈ k.rules, rule.truth v = true) → s.truth v = value := by
    intro value
    have hiff : (∀ v, k.fixed.Agrees v → k.base.truth v = true → s.truth v = value) ↔ _ :=
      hk.sourced.grounded.implies_iff (mapError_eq_ok_iff.mp hk.check) hs
    simp only [base, Formula.truth_all_iff, Assignment.agrees_empty, true_imp_iff] at hiff
    rw [← hiff]
    simp only [isModel_iff, base, Formula.truth_all_iff, and_imp]
  exact ⟨d, hd, hholds.trans (himplies true), hfails.trans (himplies false)⟩

/-- What some rules imply is implied by more of them. -/
theorem implies_of_subset {fs gs : List Formula} {value : Bool} (hsubset : fs ⊆ gs)
    (h : ∀ v, (∀ f ∈ fs, f.truth v = true) → s.truth v = value) :
    ∀ v, (∀ g ∈ gs, g.truth v = true) → s.truth v = value :=
  fun v hv => h v fun f hf => hv f (hsubset hf)

/-- More rules leave standing what follows from some of them. -/
theorem WellSourced.decided_of_subset (hk : k.WellSourced) (hl : l.WellSourced)
    (hs : s.check = .ok ()) (hspaired : s.XorsPaired) (hd : k.judge s = .ok d)
    (he : l.judge s = .ok e) (hrules : k.rules ⊆ l.rules) :
    (d.holds = true → e.holds = true) ∧ (d.fails = true → e.fails = true) := by
  obtain ⟨first, hfirst, hfirstHolds, hfirstFails⟩ := hk.exists_judge_eq_ok hs hspaired
  obtain ⟨second, hsecond, hsecondHolds, hsecondFails⟩ := hl.exists_judge_eq_ok hs hspaired
  obtain rfl := Except.ok.inj (hd.symm.trans hfirst)
  obtain rfl := Except.ok.inj (he.symm.trans hsecond)
  exact ⟨fun h => hsecondHolds.mpr (implies_of_subset hrules (hfirstHolds.mp h)),
    fun h => hsecondFails.mpr (implies_of_subset hrules (hfirstFails.mp h))⟩

/-- The order and the number of the rules are of no account. -/
theorem WellSourced.judge_eq_of_same_rules (hk : k.WellSourced) (hl : l.WellSourced)
    (hs : s.check = .ok ()) (hspaired : s.XorsPaired) (hrules : ∀ f, f ∈ k.rules ↔ f ∈ l.rules) :
    k.judge s = l.judge s := by
  obtain ⟨d, hd, _⟩ := hk.exists_judge_eq_ok hs hspaired
  obtain ⟨e, he, _⟩ := hl.exists_judge_eq_ok hs hspaired
  obtain ⟨hholds, hfails⟩ := hk.decided_of_subset hl hs hspaired hd he fun f => (hrules f).mp
  obtain ⟨hholds', hfails'⟩ := hl.decided_of_subset hk hs hspaired he hd fun f => (hrules f).mpr
  obtain ⟨holds, fails⟩ := d
  obtain ⟨holds', fails'⟩ := e
  obtain rfl : holds = holds' := Bool.eq_iff_iff.mpr ⟨hholds, hholds'⟩
  obtain rfl : fails = fails' := Bool.eq_iff_iff.mpr ⟨hfails, hfails'⟩
  rw [hd, he]

/-- Of two histories of loading the one that ends with more rules retracts nothing: a
    statement that followed still follows, and so does its negation. Where the lines of
    the texts state the same formulas, in whatever order, number and spelling and however
    divided into texts, the decision is the same, though other symbols may be fixed. -/
theorem Gathered.judge_mono {texts others : List String} (hk : Gathered texts [] k)
    (hl : Gathered others [] l) (hkcheck : k.check = .ok ()) (hlcheck : l.check = .ok ())
    (hkpaired : ∀ rule ∈ k.rules, rule.XorsPaired) (hlpaired : ∀ rule ∈ l.rules, rule.XorsPaired)
    (hs : s.check = .ok ()) (hspaired : s.XorsPaired) :
    ∃ d e, k.judge s = .ok d ∧ l.judge s = .ok e ∧
      (k.rules ⊆ l.rules →
        (d.holds = true → e.holds = true) ∧ (d.fails = true → e.fails = true)) ∧
      ((∀ f, f ∈ texts.flatMap formulas ↔ f ∈ others.flatMap formulas) → d = e) := by
  have hk' : k.WellSourced := ⟨sourced_iff_gathered.mpr ⟨texts, hk⟩, hkcheck, hkpaired⟩
  have hl' : l.WellSourced := ⟨sourced_iff_gathered.mpr ⟨others, hl⟩, hlcheck, hlpaired⟩
  obtain ⟨d, hd, _⟩ := hk'.exists_judge_eq_ok hs hspaired
  obtain ⟨e, he, _⟩ := hl'.exists_judge_eq_ok hs hspaired
  refine ⟨d, e, hd, he, hk'.decided_of_subset hl' hs hspaired hd he, fun hsame => ?_⟩
  rw [← hk.rules_eq, ← hl.rules_eq] at hsame
  have hjudge := hk'.judge_eq_of_same_rules hl' hs hspaired hsame
  rwa [hd, he, Except.ok.injEq] at hjudge

/-- The second history has the rules of the first one in another order and spelling, one of
    them twice, and a further one. It fixes `S` but not `R`. -/
theorem Gathered.judge_mono_reordered :
    let k := ((∅ : Knowledge).load "(not R)\n(or R P)").knowledge
    let first := (∅ : Knowledge).load "(or  R P )\nS\r\n"
    let l := (first.knowledge.load "# once more\n(NOT R)\n(or R P)").knowledge
    let s := Formula.symbol "P"
    (Gathered ["(not R)\n(or R P)"] [] k ∧
      Gathered ["(or  R P )\nS\r\n", "# once more\n(NOT R)\n(or R P)"] [] l) ∧
    (k.fixed.get? "R" = some false ∧ l.fixed.get? "R" = none) ∧
    (k.check = .ok () ∧ l.check = .ok () ∧ (∀ rule ∈ k.rules, rule.XorsPaired) ∧
      (∀ rule ∈ l.rules, rule.XorsPaired) ∧ s.check = .ok () ∧ s.XorsPaired) ∧
    k.rules ⊆ l.rules ∧ k.judge s = .ok ⟨true, false⟩ ∧
      ∃ e, l.judge s = .ok e ∧ e.holds = true := by
  intro k first l s
  have hk : Gathered ["(not R)\n(or R P)"] [] k :=
    .load_of_nil .empty _ (by decide +kernel) (by decide +kernel)
  have hl : Gathered ["(or  R P )\nS\r\n", "# once more\n(NOT R)\n(or R P)"] [] l :=
    .load_of_nil (.load_of_nil .empty _ (by decide +kernel) (by decide +kernel)) _
      (by decide +kernel) (by decide +kernel)
  have hchecks : k.check = .ok () ∧ l.check = .ok () ∧ (∀ rule ∈ k.rules, rule.XorsPaired) ∧
      (∀ rule ∈ l.rules, rule.XorsPaired) ∧ s.check = .ok () ∧ s.XorsPaired := by decide +kernel
  have hfixed : k.fixed.get? "R" = some false ∧ l.fixed.get? "R" = none := by decide +kernel
  have hrules : k.rules ⊆ l.rules := by decide +kernel
  have hjudge : k.judge s = .ok ⟨true, false⟩ := by decide +kernel
  obtain ⟨hkcheck, hlcheck, hkpaired, hlpaired, hs, hspaired⟩ := hchecks
  obtain ⟨d, e, hd, he, hmono, _⟩ :=
    hk.judge_mono hl hkcheck hlcheck hkpaired hlpaired hs hspaired
  obtain rfl := Except.ok.inj (hjudge.symm.trans hd)
  exact ⟨⟨hk, hl⟩, hfixed, ⟨hkcheck, hlcheck, hkpaired, hlpaired, hs, hspaired⟩, hrules, hjudge, e,
    he, (hmono hrules).1 rfl⟩

end Propositional.Knowledge
