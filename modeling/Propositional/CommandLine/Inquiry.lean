import Propositional.CommandLine.Run
import Propositional.FileSystem

namespace Propositional.CommandLine

/-- Part of a run that reads files and changes none. How it goes on behind a file depends on what
    reading that comes to. -/
inductive Inquiry (α : Type)
  | done (a : α)
  | failed (e : Error)
  | seen (event : Event) (rest : Inquiry α)
  | asked (path : String) (rest : Except FileFault String → Inquiry α)

namespace Inquiry

variable {α β : Type}

/-- What follows an error does not happen. -/
protected def bind (first : Inquiry α) (next : α → Inquiry β) : Inquiry β :=
  match first with
  | done a => next a
  | failed e => failed e
  | seen event rest => seen event (rest.bind next)
  | asked path rest => asked path fun text? => (rest text?).bind next

instance : Monad Inquiry where
  pure := done
  bind := Inquiry.bind

/-- A result that is reached without an event. -/
def ofExcept : Except Error α → Inquiry α
  | .ok a => done a
  | .error e => failed e

def emit : List Event → Inquiry Unit
  | [] => done ()
  | event :: events => seen event (emit events)

/-- Carries an inquiry out. A file is read when the inquiry has come to it, and not before. -/
def perform {m : Type → Type} [Monad m] (files : FileOperations m) : Inquiry α → m (Run α)
  | done a => return ⟨[], .ok a⟩
  | failed e => return ⟨[], .error e⟩
  | seen event rest => do
    let run ← rest.perform files
    return ⟨event :: run.events, run.result⟩
  | asked path rest => do
    let text? ← files.readText path
    (rest text?).perform files

end Inquiry

end Propositional.CommandLine
