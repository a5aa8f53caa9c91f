import Propositional.Proofs.CommandLine.FirstFault

namespace Propositional.CommandLine

/-- Options that name the same files to be read. -/
def Options.SameInputs (options other : Options) : Prop :=
  options.rules = other.rules ∧ options.additional = other.additional ∧
    options.statement = other.statement

/-- An event that shows what was read. -/
def Event.isEcho : Event → Bool
  | showedBase _ | showedStatement _ => true
  | started _ | leftOver _ | concluded _ => false

theorem Event.log_of_isEcho {event : Event} (h : event.isEcho = true) : event.log = "" := by
  cases event with
  | showedBase base => rfl
  | showedStatement s => rfl
  | started stage => cases h
  | leftOver trailing => cases h
  | concluded verdict => cases h

/-- Events whose text is empty can be left out. -/
theorem shown_filter {text : Event → String} {keep : Event → Bool} {events : List Event}
    (h : ∀ event ∈ events, keep event = false → text event = "") :
    shown text (events.filter keep) = shown text events := by
  induction events with
  | nil => rfl
  | cons event events ih =>
    have hevents := ih fun other hother => h other (List.mem_cons_of_mem _ hother)
    rw [← List.singleton_append, List.filter_append, shown_append, shown_append, hevents]
    cases hkeep : keep event with
    | true => rw [List.filter_cons_of_pos hkeep, List.filter_nil]
    | false =>
      rw [List.filter_cons_of_neg (by simp [hkeep]), List.filter_nil, shown_singleton,
        h event (by simp) hkeep, shown_eq_empty (List.forall_mem_nil _)]

namespace Run

variable {α β : Type}

/-- A run without its echo. -/
def quieten (run : Run α) : Run α :=
  ⟨run.events.filter (!·.isEcho), run.result⟩

theorem quieten_bind (run : Run α) (next : α → Run β) :
    (run >>= next).quieten = run.quieten >>= fun a => (next a).quieten := by
  obtain ⟨events, _ | a⟩ := run
  · rfl
  · simp only [quieten, ok_bind, List.filter_append]

theorem quieten_pure (a : α) : (pure a : Run α).quieten = pure a := rfl

theorem quieten_ofExcept (result : Except Error α) : (ofExcept result).quieten = ofExcept result :=
  rfl

theorem quieten_eq_self {run : Run α} (h : ∀ event ∈ run.events, event.isEcho = false) :
    run.quieten = run := by
  have hevents : run.events.filter (!·.isEcho) = run.events :=
    List.filter_eq_self.mpr fun event hevent => by rw [h event hevent, Bool.not_false]
  rw [quieten, hevents]

theorem quieten_leftOver (trailing : List TrailingInput) (result : Except Error α) :
    (⟨trailing.map .leftOver, result⟩ : Run α).quieten = ⟨trailing.map .leftOver, result⟩ := by
  refine quieten_eq_self fun event hevent => ?_
  obtain ⟨t, _, rfl⟩ := List.mem_map.mp hevent
  rfl

end Run

section Consultation

variable (texts : Texts) (options : Options)

theorem quieten_loadFile (k : Knowledge) (path : String) :
    ((loadFile k path).on texts).quieten = (loadFile k path).on texts := by
  cases htext : texts path with
  | error fault => rw [loadFile_of_error htext, Run.quieten_eq_self (List.forall_mem_nil _)]
  | ok text => rw [loadFile_of_ok htext, Run.quieten_leftOver]

theorem quieten_readStatement (path : String) :
    ((readStatement path).on texts).quieten = (readStatement path).on texts := by
  cases htext : texts path with
  | error fault => rw [readStatement_of_error htext, Run.quieten_eq_self (List.forall_mem_nil _)]
  | ok text => rw [readStatement_of_ok htext, Run.quieten_leftOver]

theorem quieten_unlessQuiet (event : Event) (h : event.isEcho = true) :
    ((unlessQuiet options event).on texts).quieten =
      (unlessQuiet { options with quiet := true } event).on texts := by
  rw [on_unlessQuiet, on_unlessQuiet, echo, echo]
  cases options.quiet with
  | true => rfl
  | false => exact congrArg (Run.mk · (.ok ())) (List.filter_cons_of_neg (by simp [h]))

/-- A run up to the verdict goes the same way whether or not it is quiet. -/
theorem quieten_consult :
    ((consult options).on texts).quieten = (consult { options with quiet := true }).on texts := by
  have hemit (event : Event) (h : event.isEcho = false) :
      (Run.emit [event]).quieten = Run.emit [event] :=
    Run.quieten_eq_self (by simpa [Run.emit] using h)
  simp only [consult, Inquiry.on_bind, Inquiry.on_emit, Inquiry.on_ofExcept, Inquiry.on_pure,
    Run.quieten_bind, Run.quieten_pure, Run.quieten_ofExcept, quieten_loadFile,
    quieten_readStatement, quieten_unlessQuiet texts options (.showedBase _) rfl,
    quieten_unlessQuiet texts options (.showedStatement _) rfl, hemit (.started _) rfl,
    hemit (.concluded _) rfl]

theorem isEcho_of_mem_printed {p : Phase} (hp : p ∈ (consultation texts options).dropLast)
    {event : Event} (h : event ∈ p.printed) : event.isEcho = true := by
  have hp : p ∈ [loadingPhase texts .rules ∅ options.rules,
      loadingPhase texts .additional (extend texts ∅ options.rules) options.additional,
      validationPhase options (known texts options), statementPhase texts options] := hp
  simp only [List.mem_cons, List.not_mem_nil, or_false] at hp
  rcases hp with rfl | rfl | rfl | rfl
  · cases h
  · cases h
  · obtain rfl : event = .showedBase (known texts options).base := eq_of_mem_echo options h
    rfl
  · obtain ⟨s, rfl⟩ := eq_showedStatement_of_mem texts options h
    rfl

theorem isEcho_or_output_of_mem_events {p : Phase}
    (hp : p ∈ (consultation texts options).dropLast) {event : Event} (h : event ∈ p.events) :
    event.isEcho = true ∨ event.output = "" := by
  have hsorted := sorted_of_mem_consultation texts options (List.dropLast_subset _ hp)
  rcases List.mem_append.mp h with hlogged | hprinted
  · exact .inr (hsorted.logged event hlogged)
  · exact .inl (isEcho_of_mem_printed texts options hp hprinted)

/-- The verdict comes behind the echo, and the echo is all that is printed before it. -/
theorem exists_events_consult_eq :
    ∃ front back, ((consult options).on texts).events = front ++ back ∧
      (∀ event ∈ front, event.isEcho = true ∨ event.output = "") ∧
      ∀ event ∈ back, event.isEcho = false := by
  by_cases hsucceed : ∀ p ∈ consultation texts options, p.fault? = none
  · obtain ⟨d, hd, hconsult⟩ := consult_of_succeed hsucceed
    refine ⟨(consultation texts options).dropLast.flatMap Phase.events,
      (decisionPhase texts options).events, ?_, ?_, ?_⟩
    · have hphases : consultation texts options =
          (consultation texts options).dropLast ++ [decisionPhase texts options] := rfl
      rw [hconsult, hphases, List.flatMap_append, List.flatMap_singleton]
      rfl
    · intro event hevent
      obtain ⟨p, hp, hevent⟩ := List.mem_flatMap.mp hevent
      exact isEcho_or_output_of_mem_events texts options hp hevent
    · intro event hevent
      obtain ⟨v, rfl⟩ := eq_concluded_of_mem texts options hevent
      rfl
  · obtain ⟨before, p, later, e, hphases, hbefore, hp⟩ := Phase.exists_first_fault hsucceed
    -- A run that fails prints no verdict.
    refine ⟨((consult options).on texts).events, [], (List.append_nil _).symm, ?_,
      List.forall_mem_nil _⟩
    rw [consult_of_fail hphases hbefore hp]
    intro event hevent
    rcases List.mem_append.mp hevent with hevent | hevent
    · obtain ⟨q, hq, hevent⟩ := List.mem_flatMap.mp hevent
      refine isEcho_or_output_of_mem_events texts options ?_ hevent
      rw [hphases, List.dropLast_append_cons]
      exact List.mem_append_left _ hq
    · exact .inr ((sorted_of_mem_consultation texts options (by simp [hphases])).logged event hevent)

theorem shown_output_consult :
    shown Event.output ((consult options).on texts).events =
      shown Event.output (((consult options).on texts).events.filter (·.isEcho)) ++
        shown Event.output ((consult options).on texts).quieten.events := by
  obtain ⟨front, back, hevents, hfront, hback⟩ := exists_events_consult_eq texts options
  have hechoed : shown Event.output (front.filter (·.isEcho)) = shown Event.output front :=
    shown_filter fun event hevent hecho => (hfront event hevent).resolve_left (by simp [hecho])
  have hquiet : shown Event.output (front.filter (!·.isEcho)) = "" := by
    refine shown_eq_empty fun event hevent => ?_
    obtain ⟨hmem, hecho⟩ := List.mem_filter.mp hevent
    exact (hfront event hmem).resolve_left (by simpa using hecho)
  have hnone : back.filter (·.isEcho) = [] :=
    List.filter_eq_nil_iff.mpr fun event hevent => by simp [hback event hevent]
  have hall : back.filter (!·.isEcho) = back :=
    List.filter_eq_self.mpr fun event hevent => by simp [hback event hevent]
  rw [Run.quieten, hevents, List.filter_append, List.filter_append, hnone, hall, List.append_nil,
    shown_append, shown_append, hechoed, hquiet, String.empty_append]

end Consultation

variable {options other : Options}

theorem quieten_consult_congr (h : options.SameInputs other) (texts : Texts) :
    ((consult options).on texts).quieten = ((consult other).on texts).quieten := by
  obtain ⟨rules, additional, statement, output, quiet⟩ := options
  obtain ⟨_, _, _, output', quiet'⟩ := other
  obtain ⟨rfl, rfl, rfl⟩ := h
  rw [quieten_consult, quieten_consult]
  rfl

theorem result_consult_congr (h : options.SameInputs other) (texts : Texts) :
    ((consult options).on texts).result = ((consult other).on texts).result := by
  have hquieten := congrArg Run.result (quieten_consult_congr h texts)
  exact hquieten

/-- The output path plays no part before the verdict. -/
theorem consult_congr (h : options.SameInputs other) (hquiet : options.quiet = other.quiet) :
    consult options = consult other := by
  obtain ⟨rules, additional, statement, output, quiet⟩ := options
  obtain ⟨_, _, _, output', _⟩ := other
  obtain ⟨rfl, rfl, rfl⟩ := h
  obtain rfl : quiet = _ := hquiet
  rfl

section Files

variable {State File : Type} {system : FileSystem State File} {s : State}

/-- The verdict to which a run comes, if it comes to one, can be written to its output path. -/
def Writable (options : Options) (system : FileSystem State File) (s : State) : Prop :=
  ∀ verdict, ((consult options).on (system.readText s)).result = .ok verdict →
    (system.write s options.output (record verdict).toUTF8).1 = .ok ()

/-- Writing the verdict is not seen. -/
theorem events_runOn (options : Options) (system : FileSystem State File) (s : State) :
    (runOn options system s).1.events = ((consult options).on (system.readText s)).events := by
  rcases hrun : (consult options).on (system.readText s) with ⟨events, e | verdict⟩
  · rw [runOn_of_error hrun]
  · rw [runOn_of_ok hrun rfl]

theorem quieten_runOn_of_quiet (hquiet : other.quiet = true) (s : State) :
    (runOn other system s).1.quieten = (runOn other system s).1 := by
  have hsame : { other with quiet := true } = other := by rw [← hquiet]
  have hconsult := congrArg Run.events (quieten_consult (system.readText s) other)
  rw [hsame, ← events_runOn] at hconsult
  rw [Run.quieten, ← events_runOn] at hconsult
  exact congrArg (Run.mk · _) hconsult

/-- A run does the same to the files whether or not it is quiet. -/
theorem quieten_runOn_congr (h : options.SameInputs other) (houtput : options.output = other.output)
    (system : FileSystem State File) (s : State) :
    (runOn options system s).1.quieten = (runOn other system s).1.quieten ∧
      (runOn options system s).2 = (runOn other system s).2 := by
  have hquieten := quieten_consult_congr h (system.readText s)
  rcases hrun : (consult options).on (system.readText s) with ⟨events, result⟩
  rcases hother : (consult other).on (system.readText s) with ⟨events', result'⟩
  rw [hrun, hother] at hquieten
  obtain ⟨hevents, rfl⟩ := Run.mk.inj hquieten
  cases result with
  | error e =>
    rw [runOn_of_error hrun, runOn_of_error hother]
    exact ⟨hquieten, rfl⟩
  | ok verdict =>
    rw [runOn_of_ok hrun rfl, runOn_of_ok hother rfl, houtput]
    exact ⟨congrArg (Run.mk · _) hevents, rfl⟩

theorem concluded_mem_runOn_iff (options : Options) (system : FileSystem State File) (s : State)
    (verdict : Verdict) :
    .concluded verdict ∈ (runOn options system s).1.events ↔
      .concluded verdict ∈ ((consult options).on (system.readText s)).quieten.events := by
  rw [events_runOn, Run.quieten, List.mem_filter]
  exact ⟨fun h => ⟨h, rfl⟩, And.left⟩

/-- A run that comes to a verdict and can write it ends with it. -/
theorem runOn_of_writable {events : List Event} {verdict : Verdict}
    (hrun : (consult options).on (system.readText s) = ⟨events, .ok verdict⟩)
    (hwritable : Writable options system s) : (runOn options system s).1 = ⟨events, .ok verdict⟩ := by
  have hwritten := hwritable verdict (congrArg Run.result hrun)
  rw [runOn_of_ok hrun rfl, hwritten]
  rfl

/-- A run with another output path looks the same if the verdict can be written to both. -/
theorem runOn_congr_of_writable (h : options.SameInputs other)
    (hquiet : options.quiet = other.quiet) (hwritable : Writable options system s)
    (hother : Writable other system s) :
    (runOn options system s).1 = (runOn other system s).1 := by
  have hconsult := congrArg (Inquiry.on (system.readText s)) (consult_congr h hquiet)
  rcases hrun : (consult other).on (system.readText s) with ⟨events, e | verdict⟩
  · rw [runOn_of_error hrun, runOn_of_error (hconsult.trans hrun)]
  · rw [runOn_of_writable hrun hother, runOn_of_writable (hconsult.trans hrun) hwritable]

end Files

theorem Run.code_quieten (run : Run Verdict) : run.quieten.completion.code = run.completion.code :=
  rfl

theorem Run.stderr_quieten (run : Run Verdict) :
    run.quieten.completion.stderr = run.completion.stderr := by
  have hlog : shown Event.log (run.events.filter (!·.isEcho)) = shown Event.log run.events :=
    shown_filter fun event _ hecho => Event.log_of_isEcho (by simpa using hecho)
  exact congrArg (· ++ _) hlog

theorem stdout_runOn {State File : Type} (options : Options) (system : FileSystem State File)
    (s : State) :
    (runOn options system s).1.completion.stdout =
      shown Event.output ((runOn options system s).1.events.filter (·.isEcho)) ++
        (runOn options system s).1.quieten.completion.stdout := by
  have hconsult := shown_output_consult (system.readText s) options
  rw [Run.quieten, ← events_runOn] at hconsult
  exact hconsult

/-- Of two runs that read the same files neither the quiet flag nor the output path decides the
    verdict. With one output path the runs end alike and leave the same files and the same log, and
    a quiet one prints what the other prints behind the echo. With two that can be written they only
    differ in what they leave in the files. An output path may well lead to one of the files read. -/
theorem run_of_same_inputs (hinputs : options.SameInputs other) {State File : Type}
    (system : FileSystem State File) (s : State) :
    let run := (runOn options system s).1
    let otherRun := (runOn other system s).1
    (((consult options).on (system.readText s)).result =
          ((consult other).on (system.readText s)).result ∧
        ∀ verdict, .concluded verdict ∈ run.events ↔ .concluded verdict ∈ otherRun.events) ∧
      (options.output = other.output →
        run.completion.code = otherRun.completion.code ∧
          run.completion.stderr = otherRun.completion.stderr ∧
          (runOn options system s).2 = (runOn other system s).2 ∧
          (other.quiet = true →
            otherRun.events = run.events.filter (!·.isEcho) ∧
              run.completion.stdout =
                shown Event.output (run.events.filter (·.isEcho)) ++
                  otherRun.completion.stdout)) ∧
      (options.quiet = other.quiet → Writable options system s → Writable other system s →
        run.completion = otherRun.completion) := by
  intro run otherRun
  refine ⟨⟨result_consult_congr hinputs _, fun verdict => ?_⟩, fun houtput => ?_,
    fun hquiet hwritable hotherWritable => ?_⟩
  · rw [concluded_mem_runOn_iff, concluded_mem_runOn_iff, quieten_consult_congr hinputs]
  · obtain ⟨hrun, hafter⟩ := quieten_runOn_congr hinputs houtput system s
    refine ⟨?_, ?_, hafter, fun hquiet => ?_⟩
    · rw [← Run.code_quieten, hrun, Run.code_quieten]
    · rw [← Run.stderr_quieten, hrun, Run.stderr_quieten]
    · rw [stdout_runOn options, hrun, quieten_runOn_of_quiet hquiet]
      rw [quieten_runOn_of_quiet hquiet] at hrun
      exact ⟨congrArg Run.events hrun.symm, rfl⟩
  · exact congrArg Run.completion
      (runOn_congr_of_writable hinputs hquiet hwritable hotherWritable)

/-- The verdict takes the place of the rules, which lie in another folder and are written to on
    another path than they are read from. -/
theorem run_of_same_inputs_rules :
    let folder : Folder := ⟨[("kb/r", "P\n(if P Q)".toUTF8), ("a", "(not R)".toUTF8),
      ("/s", "Q".toUTF8)]⟩
    let loud : Options := ⟨"kb/r", "a", "/s", "../home/kb/r", false⟩
    let quiet : Options := { loud with quiet := true }
    let elsewhere : Options := { loud with output := "kb/result.txt" }
    let run := fun options => (runOn options Folder.system folder).1.completion
    (run loud).code = (run quiet).code ∧ (run loud).stderr = (run quiet).stderr ∧
      (runOn loud Folder.system folder).2 = (runOn quiet Folder.system folder).2 ∧
      (run loud).stdout =
        "(and P\n (if P Q)\n (not R)\n)\n" ++ "\nChecking statement: Q\n" ++
          (run quiet).stdout ∧
      run loud = run elsewhere := by
  intro folder loud quiet elsewhere run
  have hecho : shown Event.output
      ((runOn loud Folder.system folder).1.events.filter (·.isEcho)) =
        "(and P\n (if P Q)\n (not R)\n)\n" ++ "\nChecking statement: Q\n" := by
    decide +kernel
  have hloud : Writable loud Folder.system folder := by
    rintro ⟨⟩ _ <;> decide +kernel
  have helsewhere : Writable elsewhere Folder.system folder := by
    rintro ⟨⟩ _ <;> decide +kernel
  have hquiet : loud.SameInputs quiet := ⟨rfl, rfl, rfl⟩
  have hinputs : loud.SameInputs elsewhere := ⟨rfl, rfl, rfl⟩
  obtain ⟨_, hsame, _⟩ := run_of_same_inputs hquiet Folder.system folder
  obtain ⟨hcode, hstderr, hfolder, hstdout⟩ := hsame rfl
  obtain ⟨_, _, hwritten⟩ := run_of_same_inputs hinputs Folder.system folder
  refine ⟨hcode, hstderr, hfolder, ?_, hwritten rfl hloud helsewhere⟩
  rw [← hecho]
  exact (hstdout rfl).2

end Propositional.CommandLine
