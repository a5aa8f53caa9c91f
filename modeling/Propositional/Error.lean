import Propositional.Formula.Evaluation
import Propositional.Formula.Printer
import Propositional.Formula.Reader
import Propositional.Formula.Validation
import Propositional.Text.Quoted

namespace Propositional

/-- Why a file could not be read or written. -/
inductive FileFault
  | notFound
  | isDirectory
  | notDirectory
  | notUtf8
  | nameTooLong
  | nullCharacter
  | other (description : String)
  deriving DecidableEq

/-- Why a run ended without a recorded verdict. A line is counted from one in the source that the
    name stands for. -/
inductive Error
  | parse (name : String) (line : Nat) (cause : ParseError)
  | invalidKnowledgeBase (cause : ValidationError)
  | invalidStatement (cause : ValidationError)
  | missingStatement
  | eval (cause : EvalError)
  | unreadable (path : String) (cause : FileFault)
  | unwritable (path : String) (cause : FileFault)
  deriving DecidableEq

def ParseError.message : ParseError → String
  | unexpectedCharacter c position =>
    "unexpected character " ++ Text.quoteChar c ++ " at " ++ toString position
  | unexpectedEnd position => "unexpected end of input at " ++ toString position ++ ", expected ')'"
  | emptyInput => "empty expression"

def ValidationError.message : ValidationError → String
  | arity connective expected found =>
    "connective \"" ++ connective.name ++ "\" with " ++ toString found ++ " arguments, expected "
      ++ toString expected
  | unknownConnective word => "unknown connective " ++ Text.quote word
  | invalidSymbol name => "invalid symbol " ++ Text.quote name

def EvalError.message : EvalError → String
  | unboundSymbol name => "symbol " ++ Text.quote name ++ " is not bound in the model"
  | missingOperand connective found =>
    "connective \"" ++ connective.name ++ "\" evaluated with " ++ toString found ++ " arguments"
  | unknownConnective word => "cannot evaluate unknown connective " ++ Text.quote word

def TrailingInput.message (t : TrailingInput) : String :=
  "ignoring trailing input " ++ Text.quote t.text ++ " after " ++ t.formula.text

def FileFault.message : FileFault → String
  | notFound => "No such file or directory (os error 2)"
  | isDirectory => "Is a directory (os error 21)"
  | notDirectory => "Not a directory (os error 20)"
  | notUtf8 => "stream did not contain valid UTF-8"
  | nameTooLong => "File name too long (os error 36)"
  | nullCharacter => "file name contained an unexpected NUL byte"
  | other description => description

namespace Error

def message : Error → String
  | parse name line cause => name ++ ":" ++ toString line ++ ": " ++ cause.message
  | invalidKnowledgeBase cause => "invalid knowledge base: " ++ cause.message
  | invalidStatement cause => "invalid statement: " ++ cause.message
  | missingStatement => "statement file is empty"
  | eval cause => cause.message
  | unreadable path _ => "failed to open file " ++ path
  | unwritable path _ => "failed to write " ++ path

/-- What an error is traced back to. A failed evaluation speaks for itself. -/
def cause? : Error → Option String
  | parse _ _ cause => some cause.message
  | invalidKnowledgeBase cause | invalidStatement cause => some cause.message
  | missingStatement | eval _ => none
  | unreadable _ cause | unwritable _ cause => some cause.message

/-- An error and its cause as they are shown to the user. -/
def report (e : Error) : String :=
  "Error: " ++ e.message ++ "\n" ++
    match e.cause? with
    | some cause => "\nCaused by:\n    " ++ cause ++ "\n"
    | none => ""

end Error

end Propositional
