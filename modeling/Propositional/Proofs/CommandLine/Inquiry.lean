import Propositional.CommandLine.Consultation

namespace Propositional.CommandLine

/-- The text that each path leads to, or why it leads to none. -/
abbrev Texts := String → Except FileFault String

namespace Run

variable {α β γ : Type}

protected def pure (a : α) : Run α := ⟨[], .ok a⟩

/-- What follows an error does not happen. -/
protected def bind (first : Run α) (second : α → Run β) : Run β :=
  match first.result with
  | .error e => ⟨first.events, .error e⟩
  | .ok a => ⟨first.events ++ (second a).events, (second a).result⟩

instance : Monad Run where
  pure := Run.pure
  bind := Run.bind

/-- A result that is reached without an event. -/
def ofExcept (result : Except Error α) : Run α := ⟨[], result⟩

def emit (events : List Event) : Run Unit := ⟨events, .ok ()⟩

theorem ok_bind (events : List Event) (a : α) (second : α → Run β) :
    (⟨events, .ok a⟩ : Run α) >>= second = ⟨events ++ (second a).events, (second a).result⟩ := rfl

theorem error_bind (events : List Event) (e : Error) (second : α → Run β) :
    (⟨events, .error e⟩ : Run α) >>= second = ⟨events, .error e⟩ := rfl

theorem pure_bind (a : α) (next : α → Run β) : pure a >>= next = next a := rfl

theorem emit_bind (events : List Event) (next : Unit → Run β) :
    emit events >>= next = ⟨events ++ (next ()).events, (next ()).result⟩ := rfl

theorem ofExcept_ok_bind (a : α) (next : α → Run β) : ofExcept (.ok a) >>= next = next a := rfl

theorem bind_assoc (run : Run α) (second : α → Run β) (third : β → Run γ) :
    run >>= second >>= third = run >>= fun a => second a >>= third := by
  obtain ⟨events, _ | a⟩ := run
  · rfl
  · rw [ok_bind, ok_bind]
    obtain ⟨later, _ | b⟩ := second a
    · rfl
    · simp only [ok_bind, List.append_assoc]

/-- Results that are reached without events are one result. -/
theorem ofExcept_bind (result : Except Error α) (f : α → Except Error β) (next : β → Run γ) :
    (do next (← ofExcept (f (← ofExcept result)))) =
      (do next (← ofExcept (do f (← result)))) := by
  cases result with
  | error e => rfl
  | ok a => rfl

theorem mk_append_nil (events : List Event) (result : Except Error α) :
    (⟨events ++ [], result⟩ : Run α) = ⟨events, result⟩ := by
  rw [List.append_nil]

end Run

namespace Inquiry

variable {α β : Type}

/-- What an inquiry comes to where the paths lead to given texts. -/
def on (texts : Texts) : Inquiry α → Run α
  | done a => pure a
  | failed e => .ofExcept (.error e)
  | seen event rest => ⟨event :: (rest.on texts).events, (rest.on texts).result⟩
  | asked path rest => (rest (texts path)).on texts

variable {texts : Texts}

theorem on_pure (a : α) : (pure a : Inquiry α).on texts = pure a := rfl

theorem on_asked (path : String) (rest : Except FileFault String → Inquiry α) :
    (asked path rest).on texts = (rest (texts path)).on texts := rfl

theorem on_ofExcept (result : Except Error α) : (ofExcept result).on texts = .ofExcept result := by
  cases result with
  | error e => rfl
  | ok a => rfl

theorem on_emit (events : List Event) : (emit events).on texts = Run.emit events := by
  induction events with
  | nil => rfl
  | cons event events ih =>
    rw [emit, on, ih]
    rfl

theorem on_bind (first : Inquiry α) (next : α → Inquiry β) :
    (first >>= next).on texts = first.on texts >>= fun a => (next a).on texts := by
  induction first with
  | done a => rfl
  | failed e => rfl
  | seen event rest ih =>
    have hrest : (seen event rest >>= next).on texts =
        ⟨event :: ((rest >>= next).on texts).events, ((rest >>= next).on texts).result⟩ := rfl
    rw [hrest, ih, on]
    obtain ⟨events, _ | a⟩ := rest.on texts
    · rfl
    · rfl
  | asked path rest ih => exact ih (texts path)

/-- Carried out on a file system, an inquiry comes to what it comes to on the texts that are there,
    and changes nothing. -/
theorem perform_operations {State File : Type} (system : FileSystem State File)
    (inquiry : Inquiry α) (s : State) :
    (inquiry.perform system.operations).run s = (inquiry.on (system.readText s), s) := by
  induction inquiry with
  | done a => rfl
  | failed e => rfl
  | seen event rest ih =>
    rw [perform, StateT.run_bind, ih]
    rfl
  | asked path rest ih => exact ih (system.readText s path)

end Inquiry

end Propositional.CommandLine
