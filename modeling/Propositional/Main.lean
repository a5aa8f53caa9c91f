import Propositional.CommandLine.Completion

namespace Propositional.CommandLine

/-- What an input or output error says about a file. The error numbers of a directory in the place of
    a file and of a long name are 21 and 36, and come with either sign. -/
def faultOf : IO.Error → FileFault
  | .noFileOrDirectory .. | .noSuchThing .. => .notFound
  | .inappropriateType _ number _ =>
    if number = 21 ∨ number = -21 then .isDirectory else .notDirectory
  | .invalidArgument _ number description =>
    if number = 36 ∨ number = -36 then .nameTooLong else .other description
  | .permissionDenied .. => .other "Permission denied (os error 13)"
  | e => .other (toString e)

/-- What is done, or why it cannot be done to a file. -/
def attempt {α : Type} (action : IO α) : IO (Except FileFault α) := do
  try
    return .ok (← action)
  catch e => return .error (faultOf e)

/-- The files around the program. -/
def surroundings : FileOperations IO where
  read path := attempt (IO.FS.readBinFile path)
  write path content := attempt (IO.FS.writeBinFile path content)

end Propositional.CommandLine

open Propositional.CommandLine in
def main (arguments : List String) : IO UInt32 := do
  let completion ← answer surroundings arguments
  (← IO.getStdout).putStr completion.stdout
  (← IO.getStderr).putStr completion.stderr
  return completion.code.toUInt32
