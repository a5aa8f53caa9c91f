import Propositional.CommandLine.Inquiry
import Propositional.CommandLine.Options
import Propositional.Knowledge.Basic
import Propositional.Statement

namespace Propositional.CommandLine

def readFile (path : String) : Inquiry String :=
  .asked path fun text? => .ofExcept (text?.mapError (.unreadable path))

/-- Extends knowledge by a file, which also names the source of its lines. -/
def loadFile (k : Knowledge) (path : String) : Inquiry Knowledge := do
  let loaded := k.load (← readFile path)
  Inquiry.emit (loaded.trailing.map .leftOver)
  match loaded.error? path with
  | some e => .failed e
  | none => return loaded.knowledge

/-- Reads the statement of a file and makes sure that it is well formed. -/
def readStatement (path : String) : Inquiry Formula := do
  let reading ← Inquiry.ofExcept (Statement.read (← readFile path))
  Inquiry.emit (reading.trailing?.toList.map .leftOver)
  Inquiry.ofExcept (Statement.check reading.formula)
  return reading.formula

/-- An event that a quiet run leaves out. -/
def unlessQuiet (options : Options) (event : Event) : Inquiry Unit :=
  Inquiry.emit (if options.quiet then [] else [event])

/-- Everything up to the verdict. -/
def consult (options : Options) : Inquiry Verdict := do
  Inquiry.emit [.started .rules]
  let knowledge ← loadFile ∅ options.rules
  Inquiry.emit [.started .additional]
  let knowledge ← loadFile knowledge options.additional
  Inquiry.ofExcept knowledge.check
  unlessQuiet options (.showedBase knowledge.base)
  Inquiry.emit [.started .statement]
  let statement ← readStatement options.statement
  unlessQuiet options (.showedStatement statement)
  let decision ← Inquiry.ofExcept (knowledge.judge statement)
  Inquiry.emit [.concluded decision.verdict]
  return decision.verdict

/-- The content of the file in which a verdict is recorded. -/
def record (verdict : Verdict) : String :=
  verdict.text ++ "\n"

/-- A run from the first file read to the verdict recorded, if it comes to one. -/
def execute {m : Type → Type} [Monad m] (files : FileOperations m) (options : Options) :
    m (Run Verdict) := do
  let run ← (consult options).perform files
  match run.result with
  | .error _ => return run
  | .ok verdict =>
    match ← files.write options.output (record verdict).toUTF8 with
    | .ok () => return run
    | .error fault => return ⟨run.events, .error (.unwritable options.output fault)⟩

end Propositional.CommandLine
