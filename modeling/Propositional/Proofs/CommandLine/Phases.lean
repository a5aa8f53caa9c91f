import Propositional.Proofs.CommandLine.Inquiry
import Propositional.Proofs.Except
import Propositional.Proofs.Knowledge.Effect

namespace Propositional.CommandLine

/-- A phase of a run, as it goes if the phases before it succeed: what it adds to the log whether it
    succeeds or not, what it prints once it has succeeded, and why it fails if it does. -/
structure Phase where
  logged : List Event
  printed : List Event
  fault? : Option Error
  deriving DecidableEq

namespace Phase

variable {β : Type} {p : Phase} {before later : List Phase} {e : Error}

/-- The events of a phase that succeeds. -/
def events (p : Phase) : List Event :=
  p.logged ++ p.printed

/-- A phase by itself. -/
def run (p : Phase) : Run Unit :=
  match p.fault? with
  | some e => ⟨p.logged, .error e⟩
  | none => ⟨p.events, .ok ()⟩

/-- Some phases, one after the other, up to the first that fails. -/
def runAll : List Phase → Run Unit
  | [] => pure ()
  | p :: phases => do
    p.run
    runAll phases

theorem run_of_fault?_eq_none (h : p.fault? = none) : p.run = ⟨p.events, .ok ()⟩ := by
  rw [run, h]

theorem run_of_fault?_eq_some (h : p.fault? = some e) : p.run = ⟨p.logged, .error e⟩ := by
  rw [run, h]

theorem run_bind_of_fault?_eq_none (h : p.fault? = none) (next : Unit → Run β) :
    p.run >>= next = ⟨p.events ++ (next ()).events, (next ()).result⟩ := by
  rw [run_of_fault?_eq_none h, Run.ok_bind]

theorem run_bind_of_fault?_eq_some (h : p.fault? = some e) (next : Unit → Run β) :
    p.run >>= next = ⟨p.logged, .error e⟩ := by
  rw [run_of_fault?_eq_some h, Run.error_bind]

/-- Where no phase fails all their events are seen. -/
theorem runAll_of_succeed (h : ∀ p ∈ before, p.fault? = none) :
    runAll before = ⟨before.flatMap events, .ok ()⟩ := by
  induction before with
  | nil => rfl
  | cons p before ih =>
    rw [runAll, run_of_fault?_eq_none (h p (by simp)), ih fun q hq => h q (by simp [hq])]
    rfl

/-- The first phase that fails decides how the run ends. What comes behind it is not seen. -/
theorem runAll_of_fail (hbefore : ∀ p ∈ before, p.fault? = none) (hfault : p.fault? = some e) :
    runAll (before ++ p :: later) = ⟨before.flatMap events ++ p.logged, .error e⟩ := by
  induction before with
  | nil =>
    rw [List.nil_append, runAll, run_of_fault?_eq_some hfault]
    rfl
  | cons q before ih =>
    rw [List.cons_append, runAll, run_of_fault?_eq_none (hbefore q (by simp)),
      ih fun r hr => hbefore r (by simp [hr]), List.flatMap_cons, List.append_assoc]
    rfl

/-- Either no phase fails, or one of them is the first to. -/
theorem exists_first_fault {phases : List Phase} (h : ¬ ∀ p ∈ phases, p.fault? = none) :
    ∃ before p later e, phases = before ++ p :: later ∧ (∀ q ∈ before, q.fault? = none) ∧
      p.fault? = some e := by
  have hfound : (phases.find? (·.fault?.isSome)).isSome = true := by
    simpa [Option.isSome_iff_ne_none] using h
  obtain ⟨p, hp⟩ := Option.isSome_iff_exists.mp hfound
  obtain ⟨hfault, before, later, hphases, hbefore⟩ := List.find?_eq_some_iff_append.mp hp
  obtain ⟨e, he⟩ := Option.isSome_iff_exists.mp hfault
  exact ⟨before, p, later, e, hphases, fun q hq => by simpa using hbefore q hq, he⟩

end Phase

variable {β : Type} (texts : Texts) (options : Options)

/-- Knowledge with what a file states and fixes. -/
def extend (k : Knowledge) (path : String) : Knowledge :=
  match texts path with
  | .ok text => k.extendedBy (Text.lines text)
  | .error _ => k

/-- What is left over on the lines of a file, up to the first that cannot be read. -/
def leftOversAt (path : String) : List TrailingInput :=
  (texts path).toOption.elim [] Knowledge.leftOvers

/-- A file is announced before it is read, so in any case. -/
def loadingPhase (stage : Stage) (k : Knowledge) (path : String) : Phase :=
  ⟨.started stage :: (leftOversAt texts path).map .leftOver, [],
    match texts path with
    | .ok text => (k.load text).error? path
    | .error fault => some (.unreadable path fault)⟩

/-- An event that is seen only if the run is not quiet. -/
def echo (event : Event) : List Event :=
  if options.quiet then [] else [event]

theorem on_unlessQuiet (event : Event) :
    (unlessQuiet options event).on texts = Run.emit (echo options event) :=
  Inquiry.on_emit _

def validationPhase (k : Knowledge) : Phase :=
  ⟨[], echo options (.showedBase k.base), errorOf? k.check⟩

/-- The statement that is put to the knowledge. -/
def asked : Except Error Formula := do
  let text ← (texts options.statement).mapError (.unreadable options.statement)
  Statement.parse text

/-- What is left over on the line of the statement, if that can be read. -/
def askedLeftOver? : Option TrailingInput := do
  let text ← (texts options.statement).toOption
  let reading ← (Statement.read text).toOption
  reading.trailing?

def statementPhase : Phase :=
  ⟨.started .statement :: (askedLeftOver? texts options).toList.map .leftOver,
    (asked texts options).toOption.elim [] fun s => echo options (.showedStatement s),
    errorOf? (asked texts options)⟩

/-- What is known from both files. -/
def known : Knowledge :=
  extend texts (extend texts ∅ options.rules) options.additional

def decided : Except Error Decision := do
  (known texts options).judge (← asked texts options)

def decisionPhase : Phase :=
  ⟨[], (decided texts options).toOption.elim [] fun d => [.concluded d.verdict],
    errorOf? (decided texts options)⟩

/-- The phases up to the verdict. -/
def consultation : List Phase :=
  [loadingPhase texts .rules ∅ options.rules,
    loadingPhase texts .additional (extend texts ∅ options.rules) options.additional,
    validationPhase options (known texts options), statementPhase texts options,
    decisionPhase texts options]

section Files

variable {texts options} {path text : String} {fault : FileFault}

theorem readFile_of_ok (htext : texts path = .ok text) :
    (readFile path).on texts = pure text := by
  rw [readFile, Inquiry.on_asked, htext]
  rfl

theorem readFile_of_error (htext : texts path = .error fault) :
    (readFile path).on texts = .ofExcept (.error (.unreadable path fault)) := by
  rw [readFile, Inquiry.on_asked, htext]
  rfl

/-- A file that can be read reports what is left over on its lines, and extends the knowledge if
    there is a formula on each line. -/
theorem loadFile_of_ok (htext : texts path = .ok text) (k : Knowledge) :
    (loadFile k path).on texts = ⟨(Knowledge.leftOvers text).map .leftOver,
      ((k.load text).error? path).elim (.ok (k.load text).knowledge) .error⟩ := by
  simp only [loadFile, Inquiry.on_bind, readFile_of_ok htext, Run.pure_bind, Inquiry.on_emit,
    Knowledge.trailing_load]
  cases (k.load text).error? path with
  | none => exact Run.mk_append_nil _ _
  | some e => exact Run.mk_append_nil _ _

theorem loadFile_of_error (htext : texts path = .error fault) (k : Knowledge) :
    (loadFile k path).on texts = ⟨[], .error (.unreadable path fault)⟩ := by
  rw [loadFile, Inquiry.on_bind, readFile_of_error htext]
  rfl

/-- So does the file of a statement, on its first line. -/
theorem readStatement_of_ok (htext : texts path = .ok text) :
    (readStatement path).on texts =
      ⟨((Statement.read text).toOption.bind (·.trailing?)).toList.map .leftOver,
        Statement.parse text⟩ := by
  simp only [readStatement, Inquiry.on_bind, readFile_of_ok htext, Run.pure_bind,
    Inquiry.on_ofExcept, Inquiry.on_emit, Inquiry.on_pure, Statement.parse]
  cases Statement.read text with
  | error e => rfl
  | ok reading =>
    rw [Run.ofExcept_ok_bind, Run.emit_bind]
    change _ = (⟨reading.trailing?.toList.map .leftOver, do
      Statement.check reading.formula
      return reading.formula⟩ : Run Formula)
    cases Statement.check reading.formula with
    | error e => exact Run.mk_append_nil _ _
    | ok _ => exact Run.mk_append_nil _ _

theorem readStatement_of_error (htext : texts path = .error fault) :
    (readStatement path).on texts = ⟨[], .error (.unreadable path fault)⟩ := by
  rw [readStatement, Inquiry.on_bind, readFile_of_error htext]
  rfl

theorem asked_of_ok (htext : texts options.statement = .ok text) :
    asked texts options = Statement.parse text := by
  rw [asked, htext]
  rfl

theorem asked_of_error (htext : texts options.statement = .error fault) :
    asked texts options = .error (.unreadable options.statement fault) := by
  rw [asked, htext]
  rfl

theorem askedLeftOver?_of_ok (htext : texts options.statement = .ok text) :
    askedLeftOver? texts options = (Statement.read text).toOption.bind (·.trailing?) := by
  rw [askedLeftOver?, htext]
  rfl

theorem askedLeftOver?_of_error (htext : texts options.statement = .error fault) :
    askedLeftOver? texts options = none := by
  rw [askedLeftOver?, htext]
  rfl

theorem loadingPhase_of_ok (htext : texts path = .ok text) (stage : Stage) (k : Knowledge) :
    loadingPhase texts stage k path =
      ⟨.started stage :: (k.load text).trailing.map .leftOver, [], (k.load text).error? path⟩ := by
  rw [loadingPhase, leftOversAt, htext, Knowledge.trailing_load]
  rfl

theorem loadingPhase_of_error (htext : texts path = .error fault) (stage : Stage) (k : Knowledge) :
    loadingPhase texts stage k path = ⟨[.started stage], [], some (.unreadable path fault)⟩ := by
  rw [loadingPhase, leftOversAt, htext]
  rfl

end Files

theorem loadFile_bind (stage : Stage) (k : Knowledge) (path : String) (next : Knowledge → Run β) :
    (do Run.emit [.started stage]; next (← (loadFile k path).on texts)) =
      (do (loadingPhase texts stage k path).run; next (extend texts k path)) := by
  rw [Run.emit_bind]
  cases htext : texts path with
  | error fault =>
    rw [loadFile_of_error htext, loadingPhase_of_error htext, Run.error_bind,
      Phase.run_bind_of_fault?_eq_some rfl]
    rfl
  | ok text =>
    rw [loadFile_of_ok htext, loadingPhase_of_ok htext, Knowledge.trailing_load]
    cases herror : (k.load text).error? path with
    | none =>
      have hextend : extend texts k path = (k.load text).knowledge := by
        rw [extend, htext, Knowledge.knowledge_load_of_error?_eq_none herror]
      rw [hextend, Phase.run_bind_of_fault?_eq_none rfl, Option.elim_none, Run.ok_bind]
      simp only [Phase.events, List.append_nil, List.cons_append, List.nil_append]
    | some e =>
      rw [Phase.run_bind_of_fault?_eq_some rfl, Option.elim_some, Run.error_bind]
      rfl

theorem validation_bind (k : Knowledge) (next : Run β) :
    (do Run.ofExcept k.check; Run.emit (echo options (.showedBase k.base)); next) =
      (do (validationPhase options k).run; next) := by
  rw [validationPhase]
  cases hcheck : k.check with
  | error e => rfl
  | ok _ => rfl

theorem statement_bind (next : Formula → Run β) :
    (do
      Run.emit [.started .statement]
      let s ← (readStatement options.statement).on texts
      Run.emit (echo options (.showedStatement s))
      next s) =
      (do (statementPhase texts options).run; next (← Run.ofExcept (asked texts options))) := by
  rw [Run.emit_bind]
  cases htext : texts options.statement with
  | error fault =>
    rw [statementPhase, asked_of_error htext, askedLeftOver?_of_error htext,
      readStatement_of_error htext]
    rfl
  | ok text =>
    rw [statementPhase, asked_of_ok htext, askedLeftOver?_of_ok htext, readStatement_of_ok htext]
    cases Statement.parse text with
    | error e => rfl
    | ok s =>
      rw [Run.ok_bind, Run.ofExcept_ok_bind, Run.emit_bind,
        Phase.run_bind_of_fault?_eq_none rfl]
      simp only [Phase.events, List.append_assoc, List.cons_append, List.nil_append]
      rfl

theorem decision_bind :
    (do
      let decision ← Run.ofExcept (decided texts options)
      Run.emit [.concluded decision.verdict]
      return decision.verdict) =
      (do
        (decisionPhase texts options).run
        Run.ofExcept ((decided texts options).map Decision.verdict)) := by
  rw [decisionPhase]
  cases decided texts options with
  | error e => rfl
  | ok d => rfl

/-- Everything up to the verdict is five phases, each of which goes on from those before it. -/
theorem consult_eq_runAll :
    (consult options).on texts =
      (do
        Phase.runAll (consultation texts options)
        Run.ofExcept ((decided texts options).map Decision.verdict)) := by
  have hknown : extend texts (extend texts ∅ options.rules) options.additional =
      known texts options := rfl
  simp only [consult, Inquiry.on_bind, Inquiry.on_emit, Inquiry.on_ofExcept, Inquiry.on_pure,
    on_unlessQuiet]
  rw [loadFile_bind, loadFile_bind, validation_bind, statement_bind, hknown, Run.ofExcept_bind,
    ← decided, decision_bind]
  simp only [consultation, Phase.runAll, Run.bind_assoc, Run.pure_bind]

variable {texts options}

/-- A run to the verdict ends with the first phase that fails. -/
theorem consult_of_fail {before later : List Phase} {p : Phase} {e : Error}
    (hphases : consultation texts options = before ++ p :: later)
    (hbefore : ∀ q ∈ before, q.fault? = none) (hfault : p.fault? = some e) :
    (consult options).on texts = ⟨before.flatMap Phase.events ++ p.logged, .error e⟩ := by
  rw [consult_eq_runAll, hphases, Phase.runAll_of_fail hbefore hfault, Run.error_bind]

theorem exists_decided_of_fault?_eq_none (h : (decisionPhase texts options).fault? = none) :
    ∃ d, decided texts options = .ok d := by
  rw [decisionPhase] at h
  cases hdecided : decided texts options with
  | error e =>
    rw [hdecided] at h
    cases h
  | ok d => exact ⟨d, rfl⟩

/-- It comes to a verdict if no phase fails. -/
theorem consult_of_succeed (h : ∀ p ∈ consultation texts options, p.fault? = none) :
    ∃ d, decided texts options = .ok d ∧
      (consult options).on texts =
        ⟨(consultation texts options).flatMap Phase.events, .ok d.verdict⟩ := by
  obtain ⟨d, hd⟩ := exists_decided_of_fault?_eq_none
    (h (decisionPhase texts options) (by simp [consultation]))
  refine ⟨d, hd, ?_⟩
  rw [consult_eq_runAll, Phase.runAll_of_succeed h, hd, Run.ok_bind]
  exact Run.mk_append_nil _ _

end Propositional.CommandLine
