import Propositional.CommandLine.Completion
import Propositional.Proofs.CommandLine.Phases

namespace Propositional.CommandLine

/-- What some events come to: what they print, or what they add to the log. -/
def shown (text : Event → String) (events : List Event) : String :=
  String.join (events.map text)

section Shown

variable {text : Event → String}

theorem shown_append (events later : List Event) :
    shown text (events ++ later) = shown text events ++ shown text later := by
  rw [shown, List.map_append, String.join_append]
  rfl

theorem shown_singleton (event : Event) : shown text [event] = text event := by
  simp [shown]

theorem shown_eq_empty {events : List Event} (h : ∀ event ∈ events, text event = "") :
    shown text events = "" := by
  induction events with
  | nil => rfl
  | cons event events ih =>
    have hevents := ih fun other hother => h other (by simp [hother])
    rw [shown] at hevents ⊢
    rw [List.map_cons, String.join_cons, h event (by simp), hevents, String.empty_append]

theorem shown_flatMap_congr {ps : List Phase} {f g : Phase → List Event}
    (h : ∀ p ∈ ps, shown text (f p) = shown text (g p)) :
    shown text (ps.flatMap f) = shown text (ps.flatMap g) := by
  induction ps with
  | nil => rfl
  | cons p ps ih =>
    rw [List.flatMap_cons, List.flatMap_cons, shown_append, shown_append, h p (by simp),
      ih fun q hq => h q (by simp [hq])]

end Shown

/-- What a phase logs prints nothing, and what it prints is not logged. -/
structure Phase.Sorted (p : Phase) : Prop where
  logged : ∀ event ∈ p.logged, event.output = ""
  printed : ∀ event ∈ p.printed, event.log = ""

theorem Phase.Sorted.output_events {p : Phase} (hp : p.Sorted) :
    shown Event.output p.events = shown Event.output p.printed := by
  rw [Phase.events, shown_append, shown_eq_empty hp.logged, String.empty_append]

theorem Phase.Sorted.log_events {p : Phase} (hp : p.Sorted) :
    shown Event.log p.events = shown Event.log p.logged := by
  rw [Phase.events, shown_append, shown_eq_empty hp.printed, String.append_empty]

variable (texts : Texts) (options : Options)

theorem output_of_mem_started {stage : Stage} {trailing : List TrailingInput} :
    ∀ event ∈ Event.started stage :: trailing.map .leftOver, event.output = "" := by
  intro event hevent
  rcases List.mem_cons.mp hevent with rfl | hevent
  · rfl
  · obtain ⟨t, _, rfl⟩ := List.mem_map.mp hevent
    rfl

theorem eq_of_mem_echo {event shownEvent : Event} (h : event ∈ echo options shownEvent) :
    event = shownEvent := by
  rw [echo] at h
  split at h
  · cases h
  · exact List.mem_singleton.mp h

theorem eq_showedStatement_of_mem {event : Event}
    (h : event ∈ (statementPhase texts options).printed) : ∃ s, event = .showedStatement s := by
  rw [statementPhase] at h
  cases hasked : asked texts options with
  | error e =>
    rw [hasked] at h
    cases h
  | ok s =>
    rw [hasked] at h
    exact ⟨s, eq_of_mem_echo options h⟩

theorem eq_concluded_of_mem {event : Event}
    (h : event ∈ (decisionPhase texts options).printed) : ∃ v, event = .concluded v := by
  rw [decisionPhase] at h
  cases hdecided : decided texts options with
  | error e =>
    rw [hdecided] at h
    cases h
  | ok d =>
    rw [hdecided, Except.toOption, Option.elim_some] at h
    exact ⟨d.verdict, List.mem_singleton.mp h⟩

theorem sorted_of_mem_consultation {p : Phase} (hp : p ∈ consultation texts options) :
    p.Sorted := by
  simp only [consultation, List.mem_cons, List.not_mem_nil, or_false] at hp
  rcases hp with rfl | rfl | rfl | rfl | rfl
  · exact ⟨output_of_mem_started, List.forall_mem_nil _⟩
  · exact ⟨output_of_mem_started, List.forall_mem_nil _⟩
  · refine ⟨List.forall_mem_nil _, fun event hevent => ?_⟩
    obtain rfl : event = .showedBase (known texts options).base := eq_of_mem_echo options hevent
    rfl
  · refine ⟨output_of_mem_started, fun event hevent => ?_⟩
    obtain ⟨s, rfl⟩ := eq_showedStatement_of_mem texts options hevent
    rfl
  · refine ⟨List.forall_mem_nil _, fun event hevent => ?_⟩
    obtain ⟨v, rfl⟩ := eq_concluded_of_mem texts options hevent
    rfl

end Propositional.CommandLine
