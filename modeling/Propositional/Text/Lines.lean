namespace Propositional.Text

/-- The lines of a text: what stands between its line feeds. A line feed at the end begins no
    further line, and an empty text has none. -/
def lines (text : String) : List String :=
  let pieces := text.toList.splitOn '\n'
  (if pieces.getLast? = some [] then pieces.dropLast else pieces).map String.ofList

/-- A line without the carriage returns and line feeds at its end. -/
def stripTerminators (line : String) : String :=
  String.ofList (line.toList.reverse.dropWhile fun c => c == '\r' || c == '\n').reverse

end Propositional.Text
