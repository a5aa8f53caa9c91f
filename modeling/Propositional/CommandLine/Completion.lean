import Propositional.CommandLine.Arguments
import Propositional.CommandLine.Consultation
import Propositional.Folder

namespace Propositional.CommandLine

/-- What is left of a program that has ended: its exit code and the text of its two streams. -/
structure Completion where
  code : UInt8
  stdout : String
  stderr : String
  deriving DecidableEq

/-- The output of a run, its log, and behind the log the error that ended it. -/
def Run.completion (run : Run Verdict) : Completion where
  code := match run.result with
    | .ok _ => 0
    | .error _ => 1
  stdout := String.join (run.events.map Event.output)
  stderr := String.join (run.events.map Event.log) ++
    match run.result with
    | .ok _ => ""
    | .error e => e.report

/-- Arguments at fault end the program before anything is read. -/
def UsageError.completion (e : UsageError) : Completion :=
  ⟨2, "", "error: " ++ e.message ++ "\n\n" ++ usage⟩

/-- A request for information prints it and does nothing else. -/
def Completion.ofText (text : String) : Completion :=
  ⟨0, text, ""⟩

/-- The program, given its arguments. -/
def answer {m : Type → Type} [Monad m] (files : FileOperations m) (arguments : List String) :
    m Completion := do
  match Request.parse arguments with
  | .ok (.run options) => return (← execute files options).completion
  | .ok .help => return .ofText help
  | .ok .version => return .ofText version
  | .error e => return e.completion

/-- The program on the files of a folder, and the folder afterwards. -/
def respond (arguments : List String) (folder : Folder) : Completion × Folder :=
  (answer Folder.system.operations arguments).run folder

end Propositional.CommandLine
