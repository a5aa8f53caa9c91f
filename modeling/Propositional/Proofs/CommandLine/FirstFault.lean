import Propositional.Proofs.CommandLine.Outcomes
import Propositional.Proofs.CommandLine.Streams
import Propositional.Proofs.FileSystem

namespace Propositional.CommandLine

variable {State File : Type} (options : Options) (system : FileSystem State File) (before : State)

/-- A run on the files of a system, and the state in which it leaves them. -/
def runOn : Run Verdict × State :=
  (execute system.operations options).run before

/-- Writes the verdict, if there is one. -/
def recorded : Except Error Unit := do
  let decision ← decided (system.readText before) options
  (system.write before options.output (record decision.verdict).toUTF8).1.mapError
    (.unwritable options.output)

/-- The verdict is written last. Nothing is logged or printed any more. -/
def recordingPhase : Phase :=
  ⟨[], [], errorOf? (recorded options system before)⟩

/-- The phases of a run on the files of a system. -/
def phases : List Phase :=
  consultation (system.readText before) options ++ [recordingPhase options system before]

theorem sorted_of_mem_phases {p : Phase} (hp : p ∈ phases options system before) : p.Sorted := by
  rcases List.mem_append.mp hp with hp | hp
  · exact sorted_of_mem_consultation (system.readText before) options hp
  · rw [List.mem_singleton.mp hp]
    exact ⟨List.forall_mem_nil _, List.forall_mem_nil _⟩

variable {options system before} {after : State} {events : List Event}

theorem runOn_of_error {e : Error}
    (h : (consult options).on (system.readText before) = ⟨events, .error e⟩) :
    runOn options system before = (⟨events, .error e⟩, before) := by
  rw [runOn, execute, StateT.run_bind, Inquiry.perform_operations, h]
  rfl

/-- A run that comes to a verdict ends with writing it, which may still fail. -/
theorem runOn_of_ok {verdict : Verdict} {written : Except FileFault Unit}
    (h : (consult options).on (system.readText before) = ⟨events, .ok verdict⟩)
    (hwrite : system.write before options.output (record verdict).toUTF8 = (written, after)) :
    runOn options system before =
      (⟨events, (written.mapError (.unwritable options.output)).map fun _ => verdict⟩, after) := by
  have hoperation : (system.operations.write options.output (record verdict).toUTF8).run before =
      (written, after) := hwrite
  rw [runOn, execute, StateT.run_bind, Inquiry.perform_operations, h]
  -- The run that has been carried out decides that the verdict is written.
  change StateT.run (_ >>= _) before = _
  rw [StateT.run_bind, hoperation]
  cases written with
  | error fault => rfl
  | ok _ => rfl

/-- The verdict is recorded in the last phase, so that phase fails just if writing it does. -/
theorem recordingPhase_fault?_eq {d : Decision}
    (h : decided (system.readText before) options = .ok d) :
    (recordingPhase options system before).fault? =
      errorOf? ((system.write before options.output (record d.verdict).toUTF8).1.mapError
        (.unwritable options.output)) := by
  rw [recordingPhase, recorded, h]
  rfl

variable {earlier later : List Phase} {p : Phase} {e : Error}

/-- A run goes through its phases up to the first that fails, and then leaves the files
    as they were. -/
theorem runOn_of_fail (hphases : phases options system before = earlier ++ p :: later)
    (hearlier : ∀ q ∈ earlier, q.fault? = none) (hfault : p.fault? = some e) :
    ∃ after, runOn options system before =
        (⟨earlier.flatMap Phase.events ++ p.logged, .error e⟩, after) ∧
      system.Unchanged before after := by
  rcases List.eq_nil_or_concat later with rfl | ⟨others, last, rfl⟩
  · -- The phase that fails is the last one, so there is a verdict.
    obtain ⟨hconsultation, hlast⟩ := List.append_inj' hphases rfl
    obtain rfl : recordingPhase options system before = p := List.singleton_inj.mp hlast
    obtain rfl := hconsultation
    obtain ⟨d, hd, hconsult⟩ := consult_of_succeed hearlier
    rw [recordingPhase_fault?_eq hd, errorOf?_eq_some_iff, mapError_eq_error_iff] at hfault
    obtain ⟨fault, hfault, rfl⟩ := hfault
    cases hwrite : system.write before options.output (record d.verdict).toUTF8 with
    | mk written after =>
      rw [hwrite] at hfault
      obtain rfl : written = .error fault := hfault
      refine ⟨after, ?_, FileSystem.unchanged_of_write hwrite⟩
      rw [runOn_of_ok hconsult hwrite, recordingPhase, List.append_nil]
      rfl
  · have hconsultation :
        consultation (system.readText before) options = earlier ++ p :: others := by
      rw [phases, List.concat_eq_append, ← List.cons_append, ← List.append_assoc] at hphases
      exact (List.append_inj' hphases rfl).1
    exact ⟨before, runOn_of_error (consult_of_fail hconsultation hearlier hfault),
      system.unchanged_refl before⟩

/-- If no phase fails then the verdict is written. -/
theorem runOn_of_succeed (h : ∀ p ∈ phases options system before, p.fault? = none) :
    ∃ d after, decided (system.readText before) options = .ok d ∧
      system.write before options.output (record d.verdict).toUTF8 = (.ok (), after) ∧
      runOn options system before =
        (⟨(phases options system before).flatMap Phase.events, .ok d.verdict⟩, after) := by
  obtain ⟨d, hd, hconsult⟩ := consult_of_succeed fun p hp => h p (List.mem_append_left _ hp)
  have hrecording := h (recordingPhase options system before) (List.mem_append_right _ (by simp))
  rw [recordingPhase_fault?_eq hd] at hrecording
  cases hwrite : system.write before options.output (record d.verdict).toUTF8 with
  | mk written after =>
    rw [hwrite] at hrecording
    cases written with
    | error fault => cases hrecording
    | ok _ =>
      refine ⟨d, after, hd, hwrite, ?_⟩
      rw [runOn_of_ok hconsult hwrite, phases, List.flatMap_append, List.flatMap_singleton,
        recordingPhase, Phase.events, List.append_nil, List.append_nil]
      rfl

/-- What is left of a run that fails: what the phases before the failure print, and what they and
    the phase that fails log, with the error behind it. -/
theorem completion_of_fail (hphases : phases options system before = earlier ++ p :: later) :
    (Run.mk (earlier.flatMap Phase.events ++ p.logged) (.error e) : Run Verdict).completion =
      ⟨1, shown Event.output (earlier.flatMap (·.printed)),
        shown Event.log ((earlier ++ [p]).flatMap (·.logged)) ++ e.report⟩ := by
  have hsorted : ∀ q ∈ earlier ++ [p], q.Sorted := by
    intro q hq
    apply sorted_of_mem_phases options system before
    rw [hphases]
    simpa using List.mem_append_left later hq
  have hoff : ∀ q ∈ earlier, q.Sorted := fun q hq => hsorted q (List.mem_append_left _ hq)
  have hlast : p.Sorted := hsorted p (by simp)
  have houtput : shown Event.output (earlier.flatMap Phase.events ++ p.logged) =
      shown Event.output (earlier.flatMap (·.printed)) := by
    rw [shown_append, shown_eq_empty hlast.logged, String.append_empty]
    exact shown_flatMap_congr fun q hq => (hoff q hq).output_events
  have hlog : shown Event.log (earlier.flatMap Phase.events ++ p.logged) =
      shown Event.log ((earlier ++ [p]).flatMap (·.logged)) := by
    rw [shown_append, List.flatMap_append, shown_append, List.flatMap_singleton]
    exact congrArg (· ++ _) (shown_flatMap_congr fun q hq => (hoff q hq).log_events)
  rw [Run.completion, ← houtput, ← hlog]
  rfl

theorem completion_of_succeed (verdict : Verdict) :
    (Run.mk ((phases options system before).flatMap Phase.events) (.ok verdict) :
        Run Verdict).completion =
      ⟨0, shown Event.output ((phases options system before).flatMap (·.printed)),
        shown Event.log ((phases options system before).flatMap (·.logged))⟩ := by
  have houtput : shown Event.output ((phases options system before).flatMap Phase.events) =
      shown Event.output ((phases options system before).flatMap (·.printed)) :=
    shown_flatMap_congr fun q hq => (sorted_of_mem_phases options system before hq).output_events
  have hlog : shown Event.log ((phases options system before).flatMap Phase.events) =
      shown Event.log ((phases options system before).flatMap (·.logged)) :=
    shown_flatMap_congr fun q hq => (sorted_of_mem_phases options system before hq).log_events
  rw [Run.completion, ← houtput, ← hlog]
  exact congrArg (Completion.mk 0 _) String.append_empty

/-- The verdict is the last thing that is printed. -/
theorem exists_output_eq_append {d : Decision}
    (h : decided (system.readText before) options = .ok d) :
    ∃ echoed, shown Event.output ((phases options system before).flatMap (·.printed)) =
      echoed ++ ("\n" ++ d.verdict.text ++ "\n\n") := by
  have hphases : phases options system before =
      (consultation (system.readText before) options).take 4 ++
        [decisionPhase (system.readText before) options, recordingPhase options system before] := rfl
  have hlast : [decisionPhase (system.readText before) options,
      recordingPhase options system before].flatMap (·.printed) = [.concluded d.verdict] := by
    rw [decisionPhase, h]
    rfl
  rw [hphases, List.flatMap_append, hlast, shown_append, shown_singleton]
  exact ⟨_, rfl⟩

/-- How each phase of a run goes, told by what the files hold. Loading and reading the statement are
    told by the lines of the files. The rules fail by the first of their subformulas that is wrong in
    itself, the decision by a formula that cannot be evaluated, and the record by a refused write. -/
structure Explained (options : Options) (system : FileSystem State File) (before : State) :
    Prop where
  loading (stage : Stage) (k : Knowledge) (path : String) :
    ∃ trailing outcome, Loading (system.readText before) k path trailing outcome ∧
      loadingPhase (system.readText before) stage k path =
        ⟨.started stage :: trailing.map .leftOver, [], errorOf? outcome⟩ ∧
      ∀ later, outcome = .ok later → extend (system.readText before) k path = later
  validation (k : Knowledge) (e : Error) :
    (validationPhase options k).fault? = some e ↔
      ∃ cause, k.base.FirstOffence cause ∧ e = .invalidKnowledgeBase cause
  statement :
    ∃ trailing? outcome, Asking (system.readText before) options.statement trailing? outcome ∧
      statementPhase (system.readText before) options =
        ⟨.started .statement :: trailing?.toList.map .leftOver,
          outcome.toOption.elim [] fun s => echo options (.showedStatement s), errorOf? outcome⟩ ∧
      asked (system.readText before) options = outcome
  decision {s : Formula} (hs : asked (system.readText before) options = .ok s) (e : Error) :
    (decisionPhase (system.readText before) options).fault? = some e ↔
      ∃ cause, Decision.reach (known (system.readText before) options).base s
        (known (system.readText before) options).fixed = .error cause ∧ e = .eval cause
  recording {s : Formula} {d : Decision} (hs : asked (system.readText before) options = .ok s)
    (hd : Decision.reach (known (system.readText before) options).base s
      (known (system.readText before) options).fixed = .ok d) (e : Error) :
    (recordingPhase options system before).fault? = some e ↔
      ∃ fault, (system.write before options.output (d.verdict.text ++ "\n").toUTF8).1 =
        .error fault ∧ e = .unwritable options.output fault

theorem explained (options : Options) (system : FileSystem State File) (before : State) :
    Explained options system before where
  loading := exists_loading (system.readText before)
  validation _ _ := validationPhase_fault?_eq_some_iff
  statement := exists_asking (system.readText before) options
  decision hs _ := decisionPhase_fault?_eq_some_iff hs
  recording hs hd e := by
    have hdecided := decided_of_asked hs
    rw [hd] at hdecided
    rw [recordingPhase_fault?_eq hdecided, errorOf?_eq_some_iff, mapError_eq_error_iff]
    simp only [eq_comm (a := e)]
    rfl

theorem exists_asked_of_decided {texts : Texts} {d : Decision} (h : decided texts options = .ok d) :
    ∃ s, asked texts options = .ok s ∧
      Decision.reach (known texts options).base s (known texts options).fixed = .ok d := by
  obtain ⟨s, hs, _⟩ := bind_eq_ok_iff.mp h
  rw [decided_of_asked hs, mapError_eq_ok_iff] at h
  exact ⟨s, hs, h⟩

/-- A run goes through its phases in order and ends with the first that fails, if one does: the
    code is 1 and no file has changed, the error is the one of that phase, the log goes up to and
    including it and the output up to it. If none fails the code is 0 and the verdict that is
    printed last is what the output file holds, and nothing else has changed. What the phases log
    and when they fail is told by the files. -/
theorem run_stops_at_first_fault (options : Options) (system : FileSystem State File)
    (before : State) :
    let completion := (runOn options system before).1.completion
    let after := (runOn options system before).2
    let texts := system.readText before
    let stages := phases options system before
    (completion.code = 0 ↔ ∀ p ∈ stages, p.fault? = none) ∧
      (∀ earlier p later e, stages = earlier ++ p :: later →
        (∀ q ∈ earlier, q.fault? = none) → p.fault? = some e →
          completion.code = 1 ∧ system.Unchanged before after ∧
            completion.stdout = shown Event.output (earlier.flatMap (·.printed)) ∧
            completion.stderr =
              shown Event.log ((earlier ++ [p]).flatMap (·.logged)) ++ e.report) ∧
      ((∀ p ∈ stages, p.fault? = none) →
        ∃ s d, asked texts options = .ok s ∧
          Decision.reach (known texts options).base s (known texts options).fixed = .ok d ∧
          completion.code = 0 ∧
          completion.stdout = shown Event.output (stages.flatMap (·.printed)) ∧
          (∃ echoed, completion.stdout = echoed ++ ("\n" ++ d.verdict.text ++ "\n\n")) ∧
          completion.stderr = shown Event.log (stages.flatMap (·.logged)) ∧
          system.Recorded before after options.output (d.verdict.text ++ "\n")) ∧
      Explained options system before := by
  intro completion after texts stages
  have hfails : ∀ earlier p later e, stages = earlier ++ p :: later →
      (∀ q ∈ earlier, q.fault? = none) → p.fault? = some e →
        system.Unchanged before after ∧ completion =
          ⟨1, shown Event.output (earlier.flatMap (·.printed)),
            shown Event.log ((earlier ++ [p]).flatMap (·.logged)) ++ e.report⟩ := by
    intro earlier p later e hphases hearlier hfault
    obtain ⟨_, hrun, hunchanged⟩ := runOn_of_fail hphases hearlier hfault
    refine ⟨?_, ?_⟩
    · simpa only [after, hrun] using hunchanged
    · simpa only [completion, hrun] using completion_of_fail hphases
  refine ⟨⟨fun hcode => ?_, fun hsucceed => ?_⟩, ?_, fun hsucceed => ?_,
    explained options system before⟩
  · by_contra hfault
    obtain ⟨earlier, p, later, e, hphases, hearlier, hp⟩ := Phase.exists_first_fault hfault
    rw [(hfails earlier p later e hphases hearlier hp).2] at hcode
    cases hcode
  · obtain ⟨d, _, _, _, hrun⟩ := runOn_of_succeed hsucceed
    simp only [completion, hrun, completion_of_succeed]
  · intro earlier p later e hphases hearlier hp
    obtain ⟨hunchanged, hcompletion⟩ := hfails earlier p later e hphases hearlier hp
    rw [hcompletion]
    exact ⟨rfl, hunchanged, rfl, rfl⟩
  · obtain ⟨d, written, hd, hwrite, hrun⟩ := runOn_of_succeed hsucceed
    obtain ⟨s, hs, hreach⟩ := exists_asked_of_decided hd
    have hcompletion : completion = _ :=
      (congrArg (fun run => run.1.completion) hrun).trans (completion_of_succeed d.verdict)
    have hafter : after = written := congrArg Prod.snd hrun
    rw [hcompletion, hafter]
    exact ⟨s, d, hs, hreach, rfl, rfl, exists_output_eq_append hd, rfl,
      FileSystem.recorded_of_write hwrite⟩

/-- The bracket of the statement is not closed, so nothing is checked. The rules are read from the
    root, the additional knowledge from another folder. -/
theorem run_stops_at_statement :
    let folder : Folder := ⟨[("/rules/r", "P x\n(if P Q)".toUTF8), ("kb/a", "(not R)".toUTF8),
      ("s", "(or Q\n".toUTF8)]⟩
    let options : Options := ⟨"/rules/r", "./kb/a", "kb/../s", "../result.txt", false⟩
    let completion := (runOn options Folder.system folder).1.completion
    let after := (runOn options Folder.system folder).2
    completion.code = 1 ∧ Folder.system.Unchanged folder after ∧
      completion.stdout = "(and P\n (if P Q)\n (not R)\n)\n" ∧
      completion.stderr = "INFO ttentails: Loading wumpus rules...\n" ++
        "WARN ttentails::prop_tree: ignoring trailing input \"x\" after P\n" ++
        "INFO ttentails: Loading additional knowledge...\n" ++
        "INFO ttentails: Loading statement...\n" ++
        "Error: statement:1: unexpected end of input at 5, expected ')'\n\n" ++
        "Caused by:\n    unexpected end of input at 5, expected ')'\n" := by
  intro folder options completion after
  obtain ⟨hcode, hunchanged, hstdout, hstderr⟩ :=
    (run_stops_at_first_fault options Folder.system folder).2.1
      ((phases options Folder.system folder).take 3)
      (statementPhase (Folder.system.readText folder) options)
      ((phases options Folder.system folder).drop 4)
      (.parse "statement" 1 (.unexpectedEnd 5)) rfl (by decide +kernel) (by decide +kernel)
  exact ⟨hcode, hunchanged, hstdout.trans (by decide +kernel), hstderr.trans (by decide +kernel)⟩

end Propositional.CommandLine
