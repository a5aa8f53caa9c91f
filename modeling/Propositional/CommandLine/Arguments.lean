import Propositional.CommandLine.Options

namespace Propositional.CommandLine

/-- What the arguments ask for. -/
inductive Request
  | run (options : Options)
  | help
  | version
  deriving DecidableEq

/-- Why the arguments ask for nothing. -/
inductive UsageError
  | unknownOption (option : String)
  | repeatedOption (option : String)
  | missingValue (option : String)
  | unexpectedValue (option : String)
  | emptyValue
  | missingPath
  | unexpectedPath (path : String)
  deriving DecidableEq

/-- What the next argument is taken for: an option or a path, the value of the option just read, or
    a path whatever it looks like. -/
inductive Expected
  | argument
  | outputValue
  | path
  deriving DecidableEq

/-- What the arguments read so far say. -/
structure Draft where
  paths : List String
  output? : Option String
  quiet : Bool
  expected : Expected

/-- After an argument reading goes on, or the request is settled whatever follows. -/
inductive Progress
  | more (draft : Draft)
  | settled (request : Request)

namespace Draft

def start : Draft := ⟨[], none, false, .argument⟩

def setQuiet (d : Draft) : Except UsageError Draft :=
  if d.quiet then .error (.repeatedOption "--quiet") else .ok { d with quiet := true }

def setOutput (d : Draft) (path : String) : Except UsageError Progress :=
  if path = "" then .error .emptyValue
  else if d.output?.isSome then .error (.repeatedOption "--output")
  else .ok (.more { d with output? := some path, expected := .argument })

def addPath (d : Draft) (path : String) : Except UsageError Progress :=
  if path = "" then .error .emptyValue
  else if d.paths.length = 3 then .error (.unexpectedPath path)
  else .ok (.more { d with paths := d.paths ++ [path] })

/-- Option letters that share one hyphen. The letter for the output takes the rest as its value,
    without an equals sign in front, or the next argument if there is no rest. -/
def takeLetters (d : Draft) : List Char → Except UsageError Progress
  | [] => .ok (.more d)
  | 'q' :: letters => do (← d.setQuiet).takeLetters letters
  | 'h' :: _ => .ok (.settled .help)
  | 'V' :: _ => .ok (.settled .version)
  | ['o'] => .ok (.more { d with expected := .outputValue })
  | 'o' :: '=' :: value => d.setOutput (String.ofList value)
  | 'o' :: value => d.setOutput (String.ofList value)
  | letter :: _ => .error (.unknownOption ("-" ++ letter.toString))

/-- An option named in full, with a value if an equals sign follows the name. -/
def takeName (d : Draft) (name : String) (value? : Option String) : Except UsageError Progress :=
  match name, value? with
  | "quiet", none => do return .more (← d.setQuiet)
  | "help", none => .ok (.settled .help)
  | "version", none => .ok (.settled .version)
  | "output", none => .ok (.more { d with expected := .outputValue })
  | "output", some value => d.setOutput value
  | "quiet", some _ | "help", some _ | "version", some _ => .error (.unexpectedValue ("--" ++ name))
  | _, _ => .error (.unknownOption ("--" ++ name))

/-- The text behind the first equals sign, if there is one. -/
def valueOf (text : List Char) : Option String :=
  match text.dropWhile (· != '=') with
  | [] => none
  | _ :: value => some (String.ofList value)

/-- Two hyphens alone end the options. A hyphen alone is a path and may be a value; any other
    argument that begins with one is no value. -/
def take (d : Draft) (argument : String) : Except UsageError Progress :=
  match d.expected, argument.toList with
  | .path, _ => d.addPath argument
  | .outputValue, '-' :: _ :: _ => .error (.missingValue "--output")
  | .outputValue, _ => d.setOutput argument
  | .argument, ['-', '-'] => .ok (.more { d with expected := .path })
  | .argument, '-' :: '-' :: text =>
    d.takeName (String.ofList (text.takeWhile (· != '='))) (valueOf text)
  | .argument, '-' :: letter :: letters => d.takeLetters (letter :: letters)
  | .argument, _ => d.addPath argument

/-- The request when all arguments are read: three paths, and an output that is named in any case. -/
def finish (d : Draft) : Except UsageError Request :=
  match d.expected, d.paths with
  | .outputValue, _ => .error (.missingValue "--output")
  | _, [rules, additional, statement] =>
    .ok (.run ⟨rules, additional, statement, d.output?.getD "result.txt", d.quiet⟩)
  | _, _ => .error .missingPath

/-- Reads arguments from left to right up to the first that settles the request or is at fault. -/
def readAll (d : Draft) : List String → Except UsageError Request
  | [] => d.finish
  | argument :: arguments => do
    match ← d.take argument with
    | .more d => d.readAll arguments
    | .settled request => return request

end Draft

def Request.parse (arguments : List String) : Except UsageError Request :=
  Draft.start.readAll arguments

def UsageError.message : UsageError → String
  | unknownOption option => "unexpected argument '" ++ option ++ "' found"
  | repeatedOption option => "the argument '" ++ option ++ "' cannot be used multiple times"
  | missingValue option => "a value is required for '" ++ option ++ "' but none was supplied"
  | unexpectedValue option => "unexpected value for '" ++ option ++ "' found; no more were expected"
  | emptyValue => "a value is required but an empty one was supplied"
  | missingPath => "the rules, the additional knowledge and the statement are required"
  | unexpectedPath path => "unexpected argument '" ++ path ++ "' found"

/-- The shape of the arguments, shown with an error in them. -/
def usage : String :=
  "Usage: ttentails [OPTIONS] <RULES> <ADDITIONAL> <STATEMENT>\n"

def help : String :=
  "Decide whether a statement follows from a propositional knowledge base\n\n" ++ usage ++
  "\nArguments:\n" ++
  "  <RULES>       Rules file, one formula per line\n" ++
  "  <ADDITIONAL>  Additional knowledge file, same format as the rules\n" ++
  "  <STATEMENT>   Statement file; only the first line is read\n" ++
  "\nOptions:\n" ++
  "  -o, --output <OUTPUT>  Where the verdict is written [default: result.txt]\n" ++
  "  -q, --quiet            Do not show the knowledge base and the statement\n" ++
  "  -h, --help             Print help\n" ++
  "  -V, --version          Print version\n"

def version : String :=
  "ttentails 0.1.0\n"

end Propositional.CommandLine
