import Propositional.Proofs.CommandLine.Phases
import Propositional.Proofs.Knowledge.Validation
import Propositional.Proofs.Text.Edits

namespace Propositional

namespace Formula

/-- The error of the first subformula that is wrong in itself. -/
def FirstOffence (f : Formula) (cause : ValidationError) : Prop :=
  ∃ before g after, f.subformulas = before ++ g :: after ∧ (∀ h ∈ before, h.IsSound) ∧
    g.Offends cause

theorem check_eq_error_iff_firstOffence {f : Formula} {cause : ValidationError} :
    f.check = .error cause ↔ f.FirstOffence cause :=
  check_eq_error_iff_offends

end Formula

namespace CommandLine

/-- What loading a file comes to, with what is left over on the lines read on the way. A file that
    cannot be read as text adds nothing. The first line that is not skipped and cannot be read ends
    the loading. -/
inductive Loading (texts : Texts) (k : Knowledge) (path : String) :
    List TrailingInput → Except Error Knowledge → Prop
  | unreadable {fault : FileFault} (htext : texts path = .error fault) :
      Loading texts k path [] (.error (.unreadable path fault))
  | stopped {text line : String} {before : List String} {cause : ParseError}
      (htext : texts path = .ok text)
      (hline : Knowledge.FirstUnreadable (Text.lines text) before line cause) :
      Loading texts k path (Knowledge.trailingOn before)
        (.error (.parse path (before.length + 1) cause))
  | finished {text : String} (htext : texts path = .ok text)
      (hlines : Knowledge.Readable (Text.lines text)) :
      Loading texts k path (Knowledge.trailingOn (Text.lines text))
        (.ok (k.extendedBy (Text.lines text)))

/-- What reading the statement of a file comes to, with what is left over on its line. Only the
    first line counts, and a file without one has no statement. -/
inductive Asking (texts : Texts) (path : String) :
    Option TrailingInput → Except Error Formula → Prop
  | unreadable {fault : FileFault} (htext : texts path = .error fault) :
      Asking texts path none (.error (.unreadable path fault))
  | missing (htext : texts path = .ok "") : Asking texts path none (.error .missingStatement)
  | refused {text line : String} {others : List String} {cause : ParseError}
      (htext : texts path = .ok text) (hlines : Text.lines text = line :: others)
      (hread : Formula.read (Text.stripTerminators line) = .error cause) :
      Asking texts path none (.error (.parse "statement" 1 cause))
  | illFormed {text line : String} {others : List String} {reading : Reading}
      {cause : ValidationError} (htext : texts path = .ok text)
      (hlines : Text.lines text = line :: others)
      (hread : Formula.read (Text.stripTerminators line) = .ok reading)
      (hoffence : reading.formula.FirstOffence cause) :
      Asking texts path reading.trailing? (.error (.invalidStatement cause))
  | wellFormed {text line : String} {others : List String} {reading : Reading}
      (htext : texts path = .ok text) (hlines : Text.lines text = line :: others)
      (hread : Formula.read (Text.stripTerminators line) = .ok reading)
      (hsound : ∀ g ∈ reading.formula.subformulas, g.IsSound) :
      Asking texts path reading.trailing? (.ok reading.formula)

variable {texts : Texts} {options : Options}

/-- The phase in which a file is loaded goes as the loading does. -/
theorem exists_loading (texts : Texts) (stage : Stage) (k : Knowledge) (path : String) :
    ∃ trailing outcome, Loading texts k path trailing outcome ∧
      loadingPhase texts stage k path =
        ⟨.started stage :: trailing.map .leftOver, [], errorOf? outcome⟩ ∧
      ∀ later, outcome = .ok later → extend texts k path = later := by
  cases htext : texts path with
  | error fault =>
    exact ⟨[], _, .unreadable htext, loadingPhase_of_error htext stage k,
      fun later hlater => by cases hlater⟩
  | ok text =>
    rw [loadingPhase_of_ok htext]
    rcases Knowledge.readable_or_exists_firstUnreadable (Text.lines text) with
      hlines | ⟨before, line, cause, hline⟩
    · refine ⟨_, _, .finished htext hlines, ?_, ?_⟩
      · rw [Knowledge.load, hlines.loadLines_eq]
        rfl
      · intro later hlater
        rw [extend, htext]
        exact Except.ok.inj hlater
    · refine ⟨_, _, .stopped htext hline, ?_, fun later hlater => by cases hlater⟩
      rw [Knowledge.error?_load_eq_some_iff.mpr ⟨before, line, cause, hline, rfl⟩, Knowledge.load,
        hline.loadLines_eq]
      rfl

theorem validationPhase_fault?_eq_some_iff {k : Knowledge} {e : Error} :
    (validationPhase options k).fault? = some e ↔
      ∃ cause, k.base.FirstOffence cause ∧ e = .invalidKnowledgeBase cause := by
  rw [validationPhase, errorOf?_eq_some_iff, Knowledge.check, mapError_eq_error_iff]
  simp only [Formula.check_eq_error_iff_firstOffence, eq_comm (a := e)]

theorem asking_of_lines {path text line : String} {others : List String}
    (htext : texts path = .ok text) (hlines : Text.lines text = line :: others) :
    Asking texts path ((Statement.read text).toOption.bind (·.trailing?))
      (Statement.parse text) := by
  rw [Statement.parse, Statement.read, hlines]
  dsimp only
  cases hread : Formula.read (Text.stripTerminators line) with
  | error cause => exact .refused htext hlines hread
  | ok reading =>
    change Asking texts path reading.trailing? (do
      Statement.check reading.formula
      return reading.formula)
    cases hcheck : reading.formula.check with
    | error cause =>
      rw [Statement.check, hcheck]
      exact .illFormed htext hlines hread (Formula.check_eq_error_iff_firstOffence.mp hcheck)
    | ok _ =>
      rw [Statement.check, hcheck]
      exact .wellFormed htext hlines hread (Formula.check_eq_ok_iff_isSound.mp hcheck)

/-- The phase in which the statement is read goes as the reading does. -/
theorem exists_asking (texts : Texts) (options : Options) :
    ∃ trailing? outcome, Asking texts options.statement trailing? outcome ∧
      statementPhase texts options =
        ⟨.started .statement :: trailing?.toList.map .leftOver,
          outcome.toOption.elim [] fun s => echo options (.showedStatement s), errorOf? outcome⟩ ∧
      asked texts options = outcome := by
  cases htext : texts options.statement with
  | error fault =>
    refine ⟨none, _, .unreadable htext, ?_, asked_of_error htext⟩
    rw [statementPhase, asked_of_error htext, askedLeftOver?_of_error htext]
  | ok text =>
    refine ⟨askedLeftOver? texts options, asked texts options, ?_, rfl, rfl⟩
    rw [asked_of_ok htext, askedLeftOver?_of_ok htext]
    by_cases hempty : text = ""
    · subst hempty
      exact .missing htext
    · obtain ⟨first, others, hpieces⟩ :=
        List.exists_cons_of_ne_nil (List.splitOn_ne_nil '\n' text.toList)
      obtain ⟨later, hlines⟩ := Text.exists_lines_eq_cons hempty hpieces
      exact asking_of_lines htext hlines

/-- A statement that was read is well formed, so only evaluating it can fail. -/
theorem decided_of_asked {s : Formula} (h : asked texts options = .ok s) :
    decided texts options =
      (Decision.reach (known texts options).base s (known texts options).fixed).mapError .eval := by
  obtain ⟨_, outcome, hasking, _, houtcome⟩ := exists_asking texts options
  rw [h] at houtcome
  subst houtcome
  cases hasking with
  | wellFormed _ _ _ hsound =>
    rw [decided, h]
    exact Knowledge.judge_eq (Formula.check_eq_ok_iff_isSound.mpr hsound) _

theorem decisionPhase_fault?_eq_some_iff {s : Formula} (h : asked texts options = .ok s)
    {e : Error} :
    (decisionPhase texts options).fault? = some e ↔
      ∃ cause, Decision.reach (known texts options).base s (known texts options).fixed =
        .error cause ∧ e = .eval cause := by
  rw [decisionPhase, errorOf?_eq_some_iff, decided_of_asked h, mapError_eq_error_iff]
  simp only [eq_comm (a := e)]

end CommandLine

end Propositional
